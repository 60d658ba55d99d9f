/-
  Scripts and the same lines typed in.

  Lines that are programs of their own can be run as one script, or typed in one after the other.
  As long as none of them reads a number, both do the same: every line is executed from the same
  variables and writes the same bytes, only that each is prompted for if it is typed in
  (`ProgramLine.script_agrees`).

  What an effect without reads does depends on the variables only, and it leaves all but the
  variables and what is written alone (`Effect.Does.quietly`).  A line of a script stands further
  down than the line that is typed in, and so does its error (`Stmt.execAll_reline`).  A line that
  is typed in is one turn of the session, or ends it (`ProgramLine.turns`), and a session that has
  made a turn goes on as the session after it (`Session.runPrompt_of_turn`).  An induction over the
  lines puts the turns together: what is behind the first line is again a script, executed in the
  session that the first line leaves (`ProgramLine.agree`).
-/
import NumScript.Proofs.Provenance
import NumScript.Proofs.Sequencing
import NumScript.Proofs.Takes
import NumScript.Proofs.Turns
import NumScript.Proofs.TypedLines

namespace NumScript

/-! ## Effects that read nothing -/

/-- The session with these variables and this reader, after these bytes were written. -/
def Session.moved (s : Session) (store : Store) (reader : Reader) (bytes : List UInt8) : Session :=
  { s with store, reader, writer := { s.writer with written := s.writer.written ++ bytes } }

/-- Moving a session twice writes the bytes of both moves. -/
theorem Session.moved_moved (s : Session) (store store' : Store) (reader reader' : Reader)
    (bytes bytes' : List UInt8) :
    (s.moved store reader bytes).moved store' reader' bytes' =
      s.moved store' reader' (bytes ++ bytes') := by
  simp only [moved, List.append_assoc]

/-- The bytes that an effect writes. -/
def Effect.written {α : Type} (a : Effect α) (s : Session) : List UInt8 :=
  (a.after s).writer.written.drop s.writer.written.length

namespace Action

/-- Only reading a line moves the reader. -/
theorem reader_of_perform {action : Action} {s u : Session}
    (quiet : ∀ keyword, action ≠ .read keyword) (performed : action.perform s = .ok () u) :
    u.reader = s.reader := by
  have gives := action.gives_take? s
  rw [Effect.after_of_ok performed] at gives
  cases action with
  | read keyword => exact absurd rfl (quiet keyword)
  | _ => exact gives

/-- Actions without reads leave the reader where it is. -/
theorem reader_of_performAll {actions : List Action} {s u : Session}
    (quiet : ∀ keyword, .read keyword ∉ actions) (performed : performAll actions s = .ok () u) :
    u.reader = s.reader := by
  induction actions generalizing s with
  | nil =>
    cases performed
    rfl
  | cons action rest ih =>
    rw [performAll] at performed
    cases first : action.perform s with
    | error e v =>
      rw [Effect.bind_of_error first] at performed
      cases performed
    | ok x v =>
      rw [Effect.bind_of_ok first] at performed
      have there := ih (fun keyword mem => quiet keyword (List.mem_cons_of_mem _ mem)) performed
      rw [there]
      refine reader_of_perform (fun keyword same => quiet keyword ?_) first
      rw [← same]
      exact List.mem_cons_self

end Action

namespace Effect

variable {α : Type} {a : Effect α} {t : Session → List Action} {s s' : Session}

/-- An effect that reads nothing depends on the variables only, and leaves all but the variables and
    what is written alone. -/
theorem Does.quietly (h : Does a t) (sound : s.writer.NeverFails) (sound' : s'.writer.NeverFails)
    (store : s'.store = s.store) (prompt : s'.prompt = s.prompt)
    (quiet : ∀ keyword, .read keyword ∉ t s) :
    a s' = endIn (s'.moved (a.after s).store s'.reader (a.written s)) (a s) := by
  have bytes : a.written s = (t s).flatMap Action.output := by
    obtain ⟨u, performed, written⟩ := Action.exists_performAll (t s) sound
    rw [h.replays.performAll sound] at performed
    cases performed
    rw [Effect.written, written, List.drop_left]
  obtain ⟨u, performed, written⟩ := Action.exists_performAll (t s) sound'
  have reader := Action.reader_of_performAll quiet performed
  obtain ⟨ended, agree⟩ := h.replays.of_performAll sound ⟨store, prompt, False.elim⟩
    (fun keyword mem => quiet keyword mem) performed
  rw [ended, bytes]
  refine congrArg (endIn · (a s)) ?_
  obtain ⟨store', reader', writer', prompt'⟩ := u
  obtain ⟨rfl, rfl, _⟩ := agree
  cases reader
  cases written
  rw [h.prompt_after, ← prompt]
  rfl

/-- An effect on other lines leaves the same session. -/
theorem after_reline (line : Nat → Nat) (a : Effect α) (s : Session) :
    (a.reline line).after s = a.after s := by
  unfold after
  rw [Effect.reline, EStateM.adaptExcept]
  cases a s <;> rfl

end Effect

/-- A program without `input` reads nothing. -/
theorem ProgramLine.read_not_mem_trace (line : ProgramLine) (s : Session) (keyword : Token) :
    .read keyword ∉ line.program.trace s := by
  intro mem
  obtain ⟨tokens, cut, made⟩ := Program.ofSource_eq_ok_iff.mp line.spelled
  obtain ⟨there, kind⟩ := Program.asked_of_ofTokens made s _ mem
  exact line.quiet tokens cut keyword there kind

/-- What each part of a program writes, executed in order up to the part in which the program
    ends. -/
def Stmt.outputs : List (List Stmt) → Session → List (List UInt8)
  | [], _ => []
  | part :: rest, s =>
    (execAll part).written s ::
      match execAll part s with
      | .ok .completed s' => outputs rest s'
      | _ => []

/-! ## Errors -/

/-- The only errors without a line are those of the outer world. -/
theorem Error.eq_io_of_line? {e : Error} (h : e.line? = none) : ∃ failure, e = .io failure := by
  cases e with
  | io failure => exact ⟨failure, rfl⟩
  | _ => cases h

/-- The writer after it was told an error. -/
def Writer.told (errors : Writer) (e : Error) : Writer :=
  { errors with written := errors.written ++ Text.encode (e.describe ++ "\n") }

/-- A writer with room for everything is told an error in full. -/
theorem Writer.report_of_room {errors : Writer} (room : errors.room = none) (e : Error) :
    errors.report e = (.ok (), errors.told e) := by
  unfold report put
  rw [room]
  obtain ⟨written, room', flushes⟩ := errors
  cases room
  rfl

/-! ## Lines that are typed in -/

namespace ProgramLine

open Effect

/-- A reader of some lines. -/
def typed (lines : List ProgramLine) : Reader :=
  .ofLines (lines.map text)

/-- What a session shows in which lines with these outputs are typed in. -/
def shown (outs : List (List UInt8)) : List UInt8 :=
  outs.flatMap (Text.encode programPrompt ++ ·)

variable {s s' : Session} {line : ProgramLine} {rest : List ProgramLine}

/-- The prompt is shown and the first line is taken. -/
theorem readLine_typed (sound : s.writer.NeverFails) (here : s.reader = typed (line :: rest)) :
    readLine programPrompt s = .ok (some (line.text ++ "\n"))
      (s.moved s.store (typed rest) (Text.encode programPrompt)) := by
  have taken : s.reader.readLine = (.ok (some (line.text ++ "\n")), typed rest) := by
    rw [here]
    exact Reader.readLine_ofLines line.whole (rest.map text)
  rw [readLine, bind_of_ok (announce_of_neverFails sound programPrompt)]
  show ofDevice s.reader.readLine.1 { s.wrote _ with reader := s.reader.readLine.2 } = _
  rw [taken]
  rfl

/-- The prompt is shown, and no line is left to be taken. -/
theorem readLine_typed_nil (sound : s.writer.NeverFails) (here : s.reader = typed []) :
    readLine programPrompt s =
      .ok none (s.moved s.store (typed []) (Text.encode programPrompt)) := by
  have taken : s.reader.readLine = (.ok none, typed []) := by
    rw [here]
    exact Reader.readLine_ofLines_nil
  rw [readLine, bind_of_ok (announce_of_neverFails sound programPrompt)]
  show ofDevice s.reader.readLine.1 { s.wrote _ with reader := s.reader.readLine.2 } = _
  rw [taken]
  rfl

/-- A line that is typed in is executed as its program is in a session with the same variables. -/
theorem runSource_typed (line : ProgramLine) (sound : s.writer.NeverFails)
    (sound' : s'.writer.NeverFails) (store : s'.store = s.store) (prompt : s'.prompt = s.prompt) :
    runSource (line.text ++ "\n") s' =
      endIn (s'.moved ((Stmt.execAll line.program.body).after s).store s'.reader
        ((Stmt.execAll line.program.body).written s)) (Stmt.execAll line.program.body s) := by
  have run : runSource (line.text ++ "\n") s' = line.program.run s' := by
    rw [runSource, Program.ofSource_line line.spelled]
    rfl
  rw [run, Program.run_eq_execAll _ sound'.2]
  exact (Stmt.does_execAll line.program.body).quietly sound sound' store prompt
    (line.read_not_mem_trace s)

/-- An error of a line is on line 1. -/
theorem line_error {e : Error} {u : Session} (sound : s.writer.NeverFails)
    (failed : Stmt.execAll line.program.body s = .error e u) :
    e.line? = some 1 ∧ (e.reline fun _ => 1) = e := by
  have here : (Stmt.execAll line.program.body).reline (fun _ => 1) =
      Stmt.execAll line.program.body := by
    rw [← Stmt.execAll_reline]
    exact congrArg (Stmt.execAll ·.body) (Program.reline_of_line line.whole line.spelled)
  have same : (e.reline fun _ => 1) = e := by
    have both := congrFun here s
    rw [Effect.reline, EStateM.adaptExcept, failed] at both
    exact (EStateM.Result.error.inj both).1
  refine ⟨?_, same⟩
  cases place : e.line? with
  | none =>
    obtain ⟨failure, rfl⟩ := Error.eq_io_of_line? place
    exact absurd failed ((Stmt.does_execAll _).ne_io sound (line.read_not_mem_trace s))
  | some l =>
    have moved := Error.line?_reline (fun _ => 1) e
    rw [same, place] at moved
    exact moved

/-- What becomes of a line that is typed in, told from what its program does in a session `s` with
    the same variables. -/
def Turns (line : ProgramLine) (rest : List ProgramLine) (s s' : Session) (errors : Writer) :
    Prop :=
  let out := (Stmt.execAll line.program.body).written s
  let next (store : Store) := s'.moved store (typed rest) (Text.encode programPrompt ++ out)
  match Stmt.execAll line.program.body s with
  | .ok .completed u =>
    u = s.moved u.store s.reader out ∧ Session.Turn (s', errors) (next u.store, errors)
  | .ok .halted u =>
    u = s.moved u.store s.reader out ∧ s'.runPrompt errors = ⟨.ok (), next u.store, errors⟩
  | .error e u =>
    u = s.moved u.store s.reader out ∧ Session.Turn (s', errors) (next u.store, errors.told e)

/-- A line that is typed in makes its turn, or ends the session. -/
theorem turns (sound : s.writer.NeverFails) (sound' : s'.writer.NeverFails) {errors : Writer}
    (told : errors.room = none) (store : s'.store = s.store) (prompt : s'.prompt = s.prompt)
    (here : s'.reader = typed (line :: rest)) : line.Turns rest s s' errors := by
  have alone := (Stmt.does_execAll line.program.body).quietly sound sound rfl rfl
    (line.read_not_mem_trace s)
  have read := readLine_typed sound' here
  have behind_prompt :
      (s'.moved s'.store (typed rest) (Text.encode programPrompt)).writer.NeverFails := sound'
  have ran := line.runSource_typed sound behind_prompt store prompt
  rw [Session.moved_moved] at ran
  unfold Turns
  dsimp only
  cases run : Stmt.execAll line.program.body s with
  | error e u =>
    rw [run, after_of_error run] at ran alone
    exact ⟨(EStateM.Result.error.inj alone).2, .failed read ran (Writer.report_of_room told e)⟩
  | ok outcome u =>
    rw [run, after_of_ok run] at ran alone
    have same := (EStateM.Result.ok.inj alone).2
    cases outcome with
    | completed => exact ⟨same, .completed read ran⟩
    | halted =>
      refine ⟨same, ?_⟩
      rw [Session.runPrompt_of_line read, ran]
      rfl

/-! ## Scripts and lines -/

/-- How some lines, typed in, compare with the script of them, of which this is the result: `outs`
    is what the lines of the script have written, the last of which has ended it.  The session
    `s'` in which they are typed in has the variables of the session `s` of the script. -/
def Agree (lines : List ProgramLine) (n : Nat) (outs : List (List UInt8)) (s s' : Session)
    (errors : Writer) : EStateM.Result Error Session Outcome → Prop
  | .ok .completed u =>
    outs.length = lines.length ∧ u = s.moved u.store s.reader outs.flatten ∧
    s'.runPrompt errors =
      ⟨.ok (), s'.moved u.store (typed []) (shown outs ++ Text.encode programPrompt), errors⟩
  | .ok .halted u =>
    u = s.moved u.store s.reader outs.flatten ∧
    s'.runPrompt errors =
      ⟨.ok (), s'.moved u.store (typed (lines.drop outs.length)) (shown outs), errors⟩
  | .error e u =>
    u = s.moved u.store s.reader outs.flatten ∧ e.line? = some (n + outs.length) ∧
    Relation.ReflTransGen Session.Turn (s', errors)
      (s'.moved u.store (typed (lines.drop outs.length)) (shown outs),
        errors.told (e.reline fun _ => 1))

/-- What holds behind the first line, which completes, holds from there. -/
theorem Agree.cons {n : Nat} {out : List UInt8} {outs : List (List UInt8)} {store : Store}
    {errors : Writer} {r : EStateM.Result Error Session Outcome}
    (turn : Session.Turn (s', errors)
      (s'.moved store (typed rest) (Text.encode programPrompt ++ out), errors))
    (h : Agree rest (n + 1) outs (s.moved store s.reader out)
      (s'.moved store (typed rest) (Text.encode programPrompt ++ out)) errors r) :
    Agree (line :: rest) n (out :: outs) s s' errors r := by
  have goes_on := Session.runPrompt_of_turn turn
  have shown_cons : shown (out :: outs) = (Text.encode programPrompt ++ out) ++ shown outs :=
    List.flatMap_cons
  match r, h with
  | .ok .completed u, ⟨length, ended, typed⟩ =>
    refine ⟨congrArg (· + 1) length, ?_, ?_⟩
    · rw [List.flatten_cons, ← Session.moved_moved]
      exact ended
    · rw [shown_cons, List.append_assoc, ← Session.moved_moved]
      exact goes_on.trans typed
  | .ok .halted u, ⟨ended, typed⟩ =>
    refine ⟨?_, ?_⟩
    · rw [List.flatten_cons, ← Session.moved_moved]
      exact ended
    · rw [shown_cons, ← Session.moved_moved]
      exact goes_on.trans typed
  | .error e u, ⟨ended, there, turns⟩ =>
    refine ⟨?_, ?_, ?_⟩
    · rw [List.flatten_cons, ← Session.moved_moved]
      exact ended
    · rw [there, List.length_cons]
      exact congrArg some (by omega)
    · rw [shown_cons, ← Session.moved_moved]
      exact turns.head turn

/-- A line that halts ends both the script and the session, behind its own output. -/
theorem Agree.of_halted {n : Nat} {out : List UInt8} {errors : Writer} {u : Session}
    (same : u = s.moved u.store s.reader out)
    (ended : s'.runPrompt errors =
      ⟨.ok (), s'.moved u.store (typed rest) (Text.encode programPrompt ++ out), errors⟩) :
    Agree (line :: rest) n [out] s s' errors (.ok .halted u) := by
  refine ⟨?_, ?_⟩
  · rw [List.flatten_singleton]
    exact same
  · rw [shown, List.flatMap_singleton]
    exact ended

/-- An error ends the script, and is told once the line is typed in. -/
theorem Agree.of_error {n : Nat} {out : List UInt8} {errors : Writer} {e : Error} {u : Session}
    (same : u = s.moved u.store s.reader out) (place : e.line? = some (n + 1))
    (turn : Session.Turn (s', errors)
      (s'.moved u.store (typed rest) (Text.encode programPrompt ++ out),
        errors.told (e.reline fun _ => 1))) :
    Agree (line :: rest) n [out] s s' errors (.error e u) := by
  refine ⟨?_, place, ?_⟩
  · rw [List.flatten_singleton]
    exact same
  · rw [shown, List.flatMap_singleton]
    exact .single turn

/-- Lines that are typed in and the script of them agree, wherever the script stands and whatever
    has been written before. -/
theorem agree (lines : List ProgramLine) (n : Nat) (s s' : Session) (errors : Writer)
    (sound : s.writer.NeverFails) (sound' : s'.writer.NeverFails) (told : errors.room = none)
    (store : s'.store = s.store) (prompt : s'.prompt = s.prompt) (here : s'.reader = typed lines) :
    Agree lines n (Stmt.outputs (parts n lines) s) s s' errors
      (Stmt.execAll (parts n lines).flatten s) := by
  induction lines generalizing n s s' with
  | nil =>
    show Agree [] n [] s s' errors (.ok .completed s)
    refine ⟨rfl, ?_, ?_⟩
    · show s = { s with writer := { s.writer with written := s.writer.written ++ [] } }
      rw [List.append_nil]
    · rw [← store]
      exact Session.runPrompt_of_end (readLine_typed_nil sound' here)
  | cons line rest ih =>
    have first : line.Turns rest s s' errors := turns sound sound' told store prompt here
    -- in the script the line stands further down
    have moved : Stmt.execAll (line.program.reline (· + n)).body =
      (Stmt.execAll line.program.body).reline (· + n) := Stmt.execAll_reline _ _
    have out : (Stmt.execAll (line.program.reline (· + n)).body).written s =
        (Stmt.execAll line.program.body).written s := by
      rw [moved, Effect.written, after_reline]
      rfl
    rw [parts, List.flatten_cons, Stmt.execAll_append, Stmt.outputs, out]
    unfold Turns at first
    dsimp only at first
    cases run : Stmt.execAll line.program.body s with
    | error e u =>
      rw [run] at first
      obtain ⟨same, turn⟩ := first
      obtain ⟨place, itself⟩ := line_error sound run
      have failed : Stmt.execAll (line.program.reline (· + n)).body s =
          .error (e.reline (· + n)) u := by
        rw [moved, Effect.reline, EStateM.adaptExcept, run]
      rw [bind_of_error failed, failed]
      refine .of_error same ?_ ?_
      · rw [Error.line?_reline, place, Nat.add_comm]
        rfl
      · rw [Error.reline_reline, show (fun _ => 1) ∘ (· + n) = fun _ => 1 from rfl, itself]
        exact turn
    | ok outcome u =>
      rw [run] at first
      have ended : Stmt.execAll (line.program.reline (· + n)).body s = .ok outcome u := by
        rw [moved, Effect.reline, EStateM.adaptExcept, run]
      rw [bind_of_ok ended, ended]
      cases outcome with
      | halted => exact .of_halted first.1 first.2
      | completed =>
        obtain ⟨same, turn⟩ := first
        generalize u.store = store₁ at same turn
        subst same
        exact .cons turn (ih (n + 1) _ _ sound sound' rfl prompt rfl)

/-- A script and the same lines typed in agree.  Every line of the script, up to the one in which
    it ends, writes the same bytes if it is typed in, each time behind a prompt, and the variables
    are the same at the end.

    If the script completes, so does the session, behind a last prompt and without an error.  If it
    halts, the session has ended with the same line.  If it fails, then on the line in which it
    ends; and the session comes to the same line, is told the same error as one on line 1, and goes
    on with the lines that are left. -/
theorem script_agrees (lines : List ProgramLine) (reader : Reader) :
    let outs := Stmt.outputs (parts 0 lines) { reader }
    let shown := outs.flatMap (Text.encode programPrompt ++ ·)
    let left := lines.drop outs.length
    let start : Session := { reader := typed lines }
    Program.ofSource (script lines) = .ok ⟨(parts 0 lines).flatten⟩ ∧
    match runSource (script lines) { reader } with
    | .ok .completed u =>
      outs.length = lines.length ∧
      u = { store := u.store, reader, writer := { written := outs.flatten } } ∧
      start.runPrompt {} = ⟨.ok (), { store := u.store, reader := typed []
                                      writer := { written := shown ++ Text.encode programPrompt } },
        {}⟩
    | .ok .halted u =>
      u = { store := u.store, reader, writer := { written := outs.flatten } } ∧
      start.runPrompt {} =
        ⟨.ok (), { store := u.store, reader := typed left, writer := { written := shown } }, {}⟩
    | .error e u =>
      u = { store := u.store, reader, writer := { written := outs.flatten } } ∧
      e.line? = some outs.length ∧
      let next : Session :=
        { store := u.store, reader := typed left, writer := { written := shown } }
      let errors : Writer := { written := Text.encode ((e.reline fun _ => 1).describe ++ "\n") }
      Relation.ReflTransGen Session.Turn (start, {}) (next, errors) ∧
      start.runPrompt {} = next.runPrompt errors := by
  intro outs shown left start
  have sound : ({ reader } : Session).writer.NeverFails := ⟨rfl, rfl⟩
  have same := agree lines 0 { reader } start {} sound ⟨rfl, rfl⟩ rfl rfl rfl rfl
  have run : runSource (script lines) { reader } =
      Stmt.execAll (parts 0 lines).flatten { reader } := by
    rw [runSource, ofSource_script]
    exact Program.run_eq_execAll ⟨(parts 0 lines).flatten⟩ sound.2
  refine ⟨ofSource_script lines, ?_⟩
  rw [run]
  match Stmt.execAll (parts 0 lines).flatten { reader }, same with
  | .ok .completed u, same => exact same
  | .ok .halted u, same => exact same
  | .error e u, ⟨ended, place, turns⟩ =>
    rw [Nat.zero_add] at place
    exact ⟨ended, place, turns, Session.runPrompt_of_turns turns⟩

/-- Behind a line that does nothing a script fails, on line 2; the session goes on with line 3. -/
theorem script_agrees_of_undefined :
    ∃ lines : List ProgramLine, lines.map text = ["", "x = y", "halt"] ∧
      runSource (script lines) { reader := ⟨[], none⟩ } =
        .error (.undefinedName ⟨.identifier, "y", 2⟩) { reader := ⟨[], none⟩ } ∧
      Relation.ReflTransGen Session.Turn ({ reader := typed lines }, {})
        ({ reader := .ofLines ["halt"], writer := { written := Text.encode "> > " } },
          { written := Text.encode "[line 1] NameError: Name 'y' is not defined.\n" }) := by
  have quiet (text : String) (tokens : List Token) (cut : Source.tokens text = .ok tokens)
      (none : tokens.all (·.kind ≠ .inputWord) = true) :
      ∀ tokens, Source.tokens text = .ok tokens → ∀ t ∈ tokens, t.kind ≠ .inputWord := by
    intro tokens' cut' t mem
    cases cut.symm.trans cut'
    exact of_decide_eq_true (List.all_eq_true.mp none t mem)
  let first : ProgramLine :=
    ⟨"", ⟨[]⟩, by decide, rfl, quiet "" _ rfl rfl⟩
  let second : ProgramLine :=
    ⟨"x = y", ⟨[.expression (.assign ⟨.identifier, "x", 1⟩ (.var ⟨.identifier, "y", 1⟩))]⟩,
      by decide, rfl, quiet "x = y" _ rfl rfl⟩
  let third : ProgramLine :=
    ⟨"halt", ⟨[.halt ⟨.haltWord, "halt", 1⟩]⟩, by decide, rfl, quiet "halt" _ rfl rfl⟩
  have agrees := (script_agrees [first, second, third] ⟨[], none⟩).2
  have failed : runSource (script [first, second, third]) { reader := ⟨[], none⟩ } =
      .error (.undefinedName ⟨.identifier, "y", 2⟩) { reader := ⟨[], none⟩ } := by
    rw [runSource, ofSource_script]
    rfl
  rw [failed] at agrees
  exact ⟨[first, second, third], rfl, failed, agrees.2.2.1⟩

end ProgramLine

end NumScript
