/-
  Printed numbers can be read back.

  What a program without a prompt writes are the numbers that it prints, each on a line of its own
  (`Program.written_eq_writeLines`).  Given these bytes, a program that assigns one `input` after
  the other to as many variables takes the lines one by one, each for the number that was printed:
  the same zero, the same infinity, or again no number.  It leaves what stands behind them, and
  changes no other variable (`Program.printed_read_back`).

  There is such a program for every list of names (`Source.readsInto_ofLines`).  A step of it takes
  one line, so an induction over the names carries the session that the first assignment leaves,
  with the other lines still to come (`Stmt.execAll_readsInto`).
-/
import NumScript.Proofs.Footprint
import NumScript.Proofs.Layout
import NumScript.Proofs.NumberLines
import NumScript.Proofs.Output

namespace NumScript

/-! ## What is printed -/

/-- Numbers as they are printed, each on a line of its own. -/
def Numeral.writeLines (values : List Float) : List UInt8 :=
  values.flatMap fun x => Text.encode (write x ++ "\n")

namespace Action

/-- The value that the action prints, if it prints one. -/
def printed? : Action → Option Float
  | print _ value => some value
  | _ => none

/-- All that is written without prompts is what is printed. -/
theorem flatMap_output {actions : List Action}
    (unasked : ∀ action ∈ actions, action.isPrompt = false) :
    actions.flatMap output = Numeral.writeLines (actions.filterMap printed?) := by
  induction actions with
  | nil => rfl
  | cons action rest ih =>
    obtain ⟨here, others⟩ := List.forall_mem_cons.mp unasked
    rw [List.flatMap_cons, ih others]
    cases action with
    | assign name value => rfl
    | read keyword => rfl
    | print keyword value => rfl
    | prompt keyword text => cases here

end Action

/-- Without a prompt in the session none is shown. -/
theorem Effect.Does.isPrompt_eq_false {α : Type} {a : Effect α} {t : Session → List Action}
    (h : Does a t) {s : Session} (none : s.prompt = none) :
    ∀ action ∈ t s, action.isPrompt = false := by
  induction h generalizing s with
  | ofExcept r _ => exact List.forall_mem_nil _
  | fetch name => exact List.forall_mem_nil _
  | assign name x => exact List.forall_mem_singleton.mpr rfl
  | showPrompt keyword =>
    dsimp only
    rw [none]
    exact List.forall_mem_nil _
  | takeLine keyword => exact List.forall_mem_singleton.mpr rfl
  | write keyword x => exact List.forall_mem_singleton.mpr rfl
  | @bind _ _ a f t u first _ ih ih' =>
    refine List.forall_mem_append.mpr ⟨ih none, ?_⟩
    cases run : a s with
    | ok x s' =>
      have kept := first.prompt_after s
      rw [after_of_ok run, none] at kept
      rw [andThen_of_ok run]
      exact ih' x kept
    | error e s' =>
      rw [andThen_of_error run]
      exact List.forall_mem_nil _

namespace Program

/-- The values that running a program prints, in order. -/
def printed (p : Program) (s : Session) : List Float :=
  (p.trace s).filterMap Action.printed?

/-- What a program without a prompt writes, however it ends, are the values that it prints. -/
theorem written_eq_writeLines (p : Program) {s : Session} (none : s.prompt = none)
    (room : s.writer.HasRoom (Numeral.writeLines (p.printed s)).length) :
    p.run.written s = Numeral.writeLines (p.printed s) := by
  have output : (p.trace s).flatMap Action.output = Numeral.writeLines (p.printed s) :=
    Action.flatMap_output ((Stmt.does_execAll p.body).isPrompt_eq_false none)
  rw [← output] at room ⊢
  rw [Effect.written, p.written_of_hasRoom room, List.drop_left]

end Program

/-! ## Programs that read numbers -/

/-- The tokens of `x = input` for each of these names, as they are written one after the other. -/
def Source.readings (names : List String) : List (TokenKind × String) :=
  names.flatMap fun name => [(.identifier, name), (.equal, "="), (.inputWord, "input")]

/-- The text assigns an `input` to each of these names, one after the other, whatever its layout
    is. -/
def Source.ReadsInto (source : String) (names : List String) : Prop :=
  ∃ tokens, Source.tokens source = .ok tokens ∧ tokens.map Token.spelling = readings names

/-- The statement assigns an `input` to this name. -/
def Stmt.ReadsInto (name : String) (s : Stmt) : Prop :=
  ∃ line line', s = .expression
    (.assign ⟨.identifier, name, line⟩ (.input ⟨.inputWord, "input", line'⟩))

/-- Such tokens make one such statement after the other. -/
theorem Program.exists_of_spelling {names : List String} {tokens : List Token}
    (spelled : tokens.map Token.spelling = Source.readings names) :
    ∃ body, ofTokens tokens = .ok ⟨body⟩ ∧ List.Forall₂ Stmt.ReadsInto names body := by
  induction names generalizing tokens with
  | nil =>
    obtain rfl := List.map_eq_nil_iff.mp spelled
    exact ⟨[], rfl, .nil⟩
  | cons name rest ih =>
    rw [Source.readings, List.flatMap_cons] at spelled
    obtain ⟨first, others, rfl, three, more⟩ := List.map_eq_append_iff.mp spelled
    obtain ⟨body, made, reads⟩ := ih more
    obtain ⟨line, sign, line', rfl⟩ : ∃ line sign line', first =
        [⟨.identifier, name, line⟩, ⟨.equal, "=", sign⟩, ⟨.inputWord, "input", line'⟩] := by
      rcases first with _ | ⟨⟨⟩, _ | ⟨⟨⟩, _ | ⟨⟨⟩, _ | ⟨_, _⟩⟩⟩⟩ <;> cases three
      exact ⟨_, _, _, rfl⟩
    have statement : ofTokens
        [⟨.identifier, name, line⟩, ⟨.equal, "=", sign⟩, ⟨.inputWord, "input", line'⟩] =
        .ok ⟨[.expression
          (.assign ⟨.identifier, name, line⟩ (.input ⟨.inputWord, "input", line'⟩))]⟩ := rfl
    exact ⟨_, ofTokens_append statement made, .cons ⟨line, line', rfl⟩ reads⟩

/-- A text that reads into variables makes a program of as many statements, each of which reads one.
    -/
theorem Source.ReadsInto.exists_body {source : String} {names : List String}
    (h : ReadsInto source names) : ∃ body, Program.ofSource source = .ok ⟨body⟩ ∧
      List.Forall₂ Stmt.ReadsInto names body := by
  obtain ⟨tokens, cut, spelled⟩ := h
  obtain ⟨body, made, reads⟩ := Program.exists_of_spelling spelled
  exact ⟨body, Program.ofSource_eq_ok_iff.mpr ⟨tokens, cut, made⟩, reads⟩

namespace Source

/-- Such texts can be put side by side with a blank between them. -/
theorem ReadsInto.append_blank {c : Char} (blank : isSkipped c = true) {a b : String}
    {names names' : List String} (h : ReadsInto a names) (h' : ReadsInto b names') :
    ReadsInto (a ++ c.toString ++ b) (names ++ names') := by
  obtain ⟨ts, cut, spelled⟩ := h
  obtain ⟨us, cut', spelled'⟩ := h'
  refine ⟨_, tokens_append_blank blank cut cut', ?_⟩
  rw [List.map_append, List.map_map, readings, List.flatMap_append]
  exact congrArg₂ (· ++ ·) spelled spelled'

/-- For every list of names there is such a text. -/
theorem readsInto_ofLines {names : List String}
    (h : ∀ name ∈ names, Lexicon.kind? name = some .identifier) :
    ReadsInto (Text.ofLines (names.map (· ++ " = input"))) names := by
  induction names with
  | nil => exact ⟨[], rfl, rfl⟩
  | cons name rest ih =>
    obtain ⟨spelled, others⟩ := List.forall_mem_cons.mp h
    have cut : tokens name = .ok [⟨.identifier, name, 1⟩] :=
      tokensOf_eq_ok_iff.mpr (items_of_kind? spelled)
    have cut' : tokens "= input" = .ok [⟨.equal, "=", 1⟩, ⟨.inputWord, "input", 1⟩] := rfl
    have line : ReadsInto (name ++ " = input") [name] := by
      have joined := tokens_append_blank (c := ' ') rfl cut cut'
      rw [String.append_assoc] at joined
      exact ⟨_, joined, rfl⟩
    exact line.append_blank (c := '\n') rfl (ih others)

end Source

namespace Stmt

open Effect

/-- One such statement takes the line of a printed number, which is the value of the variable from
    then on. -/
theorem exec_readsInto {name : String} {statement : Stmt} (reads : statement.ReadsInto name)
    {u : Session} {x : Float} {more : List UInt8} (sound : u.writer.NeverFails)
    (bytes : u.reader.bytes = Text.encode (Numeral.write x ++ "\n") ++ more) :
    statement.exec u = .ok .completed
      (u.moved (u.store.set name x) { u.reader with bytes := more } u.promptBytes) := by
  obtain ⟨line, line', rfl⟩ := reads
  have spelled := Numeral.read?_write x
  have whole : '\n' ∉ (Numeral.write x).toList := by
    intro mem
    cases Numeral.isBlank_of_read? spelled '\n' mem
  rw [Text.encode_append, List.append_assoc] at bytes
  have taken := Expr.eval_input_of_isAloneIn ⟨.inputWord, "input", line'⟩ (.refl _) whole spelled
    sound bytes (.inl rfl)
  have assigned : (Expr.assign ⟨.identifier, name, line⟩
      (.input ⟨.inputWord, "input", line'⟩)).eval u = .ok (some x)
        (u.moved (u.store.set name x) { u.reader with bytes := more } u.promptBytes) := by
    rw [Expr.eval, bind_of_ok taken]
    rfl
  rw [exec]
  exact bind_of_ok (bind_of_ok assigned)

/-- Such statements take the lines of printed numbers, one after the other. -/
theorem execAll_readsInto {names : List String} {body : List Stmt}
    (reads : List.Forall₂ ReadsInto names body) {values : List Float}
    (length : names.length = values.length) {u : Session} {more : List UInt8}
    (sound : u.writer.NeverFails) (bytes : u.reader.bytes = Numeral.writeLines values ++ more) :
    execAll body u = .ok .completed (u.moved (u.store.setAll (names.zip values))
      { u.reader with bytes := more } (List.replicate names.length u.promptBytes).flatten) := by
  induction reads generalizing values u with
  | nil =>
    obtain rfl := List.length_eq_zero_iff.mp length.symm
    obtain rfl : u.reader.bytes = more := bytes
    show _ = EStateM.Result.ok Outcome.completed (u.moved u.store u.reader [])
    rw [Session.moved, List.append_nil]
    rfl
  | @cons name statement names body first _ ih =>
    cases values with
    | nil => cases length
    | cons x values =>
      rw [Numeral.writeLines, List.flatMap_cons, List.append_assoc] at bytes
      let next := u.moved (u.store.set name x)
        { u.reader with bytes := Numeral.writeLines values ++ more } u.promptBytes
      have step : statement.exec u = .ok .completed next := exec_readsInto first sound bytes
      have later := ih (Nat.succ.inj length) (u := next) sound rfl
      rw [execAll, bind_of_ok step]
      refine later.trans ?_
      rw [Session.moved_moved]
      rfl

end Stmt

/-! ## Variables -/

namespace Store

/-- Writes to other names leave a variable as it is. -/
theorem get?_setAll_zip (store : Store) {names : List String} (values : List Float)
    {name : String} (other : name ∉ names) :
    (store.setAll (names.zip values)).get? name = store.get? name := by
  have unwritten : lastWrite? name (names.zip values) = none :=
    lastWrite?_eq_none fun x mem => other (List.of_mem_zip mem).1
  rw [get?_setAll, unwritten]
  rfl

/-- Different names that are given values have these values. -/
theorem map_get?_setAll_zip (store : Store) {names : List String} {values : List Float}
    (different : names.Nodup) (length : names.length = values.length) :
    names.map (store.setAll (names.zip values)).get? = values.map some := by
  induction names generalizing store values with
  | nil =>
    obtain rfl := List.length_eq_zero_iff.mp length.symm
    rfl
  | cons name names ih =>
    cases values with
    | nil => cases length
    | cons x values =>
      obtain ⟨new, different⟩ := List.nodup_cons.mp different
      have here : ((store.set name x).setAll (names.zip values)).get? name = some x := by
        rw [get?_setAll_zip _ _ new, get?_set, if_pos rfl]
      show _ :: names.map ((store.set name x).setAll (names.zip values)).get? = _
      rw [ih _ different (Nat.succ.inj length)]
      exact congrArg (· :: values.map some) here

end Store

/-! ## Reading back -/

namespace Program

/-- Printed numbers can be read back.  What a program without a prompt writes are the values that it
    prints; and a program that reads as many numbers into different variables, given these bytes and
    any others behind them, completes, leaves the others, and has given each variable the value that
    was printed, and no other variable another value.  The text of a number is a literal of one
    token exactly if the number is finite and has no sign.  And a literal that stands alone on a
    line, with any blanks around it, is read from there as the value that it has. -/
theorem printed_read_back :
    (∀ (p : Program) (s : Session), s.prompt = none →
      s.writer.HasRoom (Numeral.writeLines (p.printed s)).length →
      p.run.written s = Numeral.writeLines (p.printed s) ∧
      ∀ (source : String) (names : List String), Source.ReadsInto source names → names.Nodup →
        names.length = (p.printed s).length →
        ∀ (u : Session) (more : List UInt8), u.writer.NeverFails →
          u.reader.bytes = p.run.written s ++ more →
          ∃ v, Effect.runSource source u = .ok .completed v ∧
            v.reader = { u.reader with bytes := more } ∧
            names.map v.store.get? = (p.printed s).map some ∧
            ∀ name ∉ names, v.store.get? name = u.store.get? name) ∧
    (∀ x : Float, Source.items (Numeral.write x) = [.ok ⟨.number x, Numeral.write x, 1⟩] ↔
      ∃ m, m ≠ .infinity ∧ x = Magnitude.toFloat false m) ∧
    (∀ (source : String) (t : Token) (value : Float), .ok t ∈ Source.items source →
      t.kind = .number value →
      ∀ line : String, Text.IsAloneIn t.lexeme line → '\n' ∉ line.toList →
        ∀ (keyword : Token) (u : Session) (rest : List UInt8), u.writer.NeverFails →
          u.reader.bytes = Text.encode line ++ rest →
          rest.head? = some lineEnd ∨ rest = [] ∧ u.reader.fault = none →
          (Expr.input keyword).eval u = .ok (some value)
            (u.moved u.store { u.reader with bytes := rest.tail } u.promptBytes)) := by
  refine ⟨?_, Source.items_write_iff, ?_⟩
  · intro p s unasked room
    have written := p.written_eq_writeLines unasked room
    refine ⟨written, ?_⟩
    intro source names reads different length u more sound bytes
    obtain ⟨body, made, reads⟩ := reads.exists_body
    have completed : Effect.runSource source u = Stmt.execAll body u := by
      rw [Effect.runSource, made]
      exact run_eq_execAll _ sound.2
    rw [written] at bytes
    rw [Stmt.execAll_readsInto reads length sound bytes] at completed
    exact ⟨_, completed, rfl, u.store.map_get?_setAll_zip different length,
      fun name other => u.store.get?_setAll_zip _ other⟩
  · intro source t value mem number line alone whole keyword u rest sound bytes ends
    exact Expr.eval_input_of_isAloneIn keyword alone whole (Source.read?_of_mem_items mem number)
      sound bytes ends

/-- A negative zero and what is not a number, both read from the input, and one half are printed and
    read back.  A literal of one half is read from a line without line end, with blanks around
    it. -/
theorem printed_read_back_of_three :
    let keyword : Token := ⟨.inputWord, "input", 1⟩
    let print (e : Expr) : Stmt := .expression (.print ⟨.printWord, "print", 1⟩ e)
    let half : Float := Magnitude.toFloat false ⟨0x3FE0000000000000, by decide⟩
    let p : Program := ⟨[print (.input keyword), print (.input keyword),
      print (.literal ⟨.number half, "0.5", 1⟩ half)]⟩
    let s : Session := { reader := ⟨Text.encode "-0\nnan\n", none⟩ }
    let u : Session :=
      { reader := ⟨Text.encode "-0\nNaN\n0.5\n7\n", none⟩, prompt := some "? " }
    let padded : Session := { reader := ⟨Text.encode "\t0.50 ", none⟩ }
    ofSource "print input print input print 0.5" = .ok p ∧
    s.writer.HasRoom (Numeral.writeLines (p.printed s)).length ∧
    p.printed s = [Magnitude.toFloat true .zero, Magnitude.nan, half] ∧
    (∃ v, Effect.runSource "x = input\ny = input\nz = input\n" u = .ok .completed v ∧
      v.reader.bytes = Text.encode "7\n" ∧ ["x", "y", "z"].map v.store.get? =
        [some (Magnitude.toFloat true .zero), some Magnitude.nan, some half]) ∧
    Source.items "0.5" = [.ok ⟨.number half, "0.5", 1⟩] ∧
    (Expr.input keyword).eval padded =
      .ok (some half) (padded.moved .empty ⟨[], none⟩ []) := by
  intro keyword print half p s u padded
  have printed : p.printed s = [Magnitude.toFloat true .zero, Magnitude.nan, half] := by
    decide +kernel
  have room : s.writer.HasRoom (Numeral.writeLines (p.printed s)).length := nofun
  obtain ⟨back, literal, input⟩ := printed_read_back
  obtain ⟨written, reads⟩ := back p s rfl room
  have bytes : u.reader.bytes = p.run.written s ++ Text.encode "7\n" := by
    rw [written, printed]
    decide +kernel
  have names : ∀ name ∈ ["x", "y", "z"], Lexicon.kind? name = some .identifier := by decide +kernel
  have text : Text.ofLines (["x", "y", "z"].map (· ++ " = input")) =
      "x = input\ny = input\nz = input\n" := by decide +kernel
  have reading := Source.readsInto_ofLines names
  rw [text] at reading
  obtain ⟨v, completed, reader, values, _⟩ :=
    reads _ _ reading (by decide) (by rw [printed]; rfl) u _ ⟨rfl, rfl⟩ bytes
  rw [printed] at values
  have spelled : Numeral.write half = "0.5" := by decide +kernel
  have token : .ok ⟨.number half, "0.50", 1⟩ ∈ Source.items "0.50" := by decide +kernel
  refine ⟨by decide +kernel, room, printed,
    ⟨v, completed, congrArg Reader.bytes reader, values⟩, ?_, ?_⟩
  · rw [← spelled]
    exact (literal half).mpr ⟨_, by decide, rfl⟩
  · have alone : Text.IsAloneIn "0.50" "\t0.50 " := ⟨"\t", " ", rfl, List.all_eq_true.mp rfl⟩
    exact input "0.50" _ half token rfl "\t0.50 " alone (by decide) keyword padded [] ⟨rfl, rfl⟩ rfl
      (.inr ⟨rfl, rfl⟩)

end Program

end NumScript
