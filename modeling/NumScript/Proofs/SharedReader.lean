/-
  One reader for all.

  Everything that is done in one session reads from the same reader: a request for a line, the lines
  that are run as programs, and the `input`s of these and of all other programs, in any order.  The
  reader loses nothing and gives nothing twice (`Dialogue.takes_exact`): every read takes one whole
  line, the lines are taken in the order of the reads, and behind them the bytes are left that no
  read has taken.

  A dialogue is put together from requests and a request from reads (`Dialogue.takesOf`), and each
  part leaves the reader where the next one finds it (`Reader.gives_append`).  A session that reads
  its programs line by line is followed turn by turn, like the run itself (`Session.promptTakes`).
-/
import NumScript.Proofs.Evaluated
import NumScript.Proofs.Turns
import NumScript.Session.Dialogue

namespace NumScript

/-! ## Programs -/

namespace Effect

/-- The lines that running a source text takes: none if it is no program. -/
def sourceTakes (source : String) (s : Session) : List Take :=
  match Program.ofSource source with
  | .ok p => p.takes s
  | .error _ => []

/-- The line that is taken behind a prompt, if that can be shown. -/
def lineTakes (taker : Taker) (prompt : String) (s : Session) : List Take :=
  match announce prompt s with
  | .ok _ u => [⟨taker, u.reader⟩]
  | .error _ _ => []

/-- Running a source text takes whole lines off the reader. -/
theorem gives_sourceTakes (source : String) (s : Session) :
    s.reader.Gives (sourceTakes source s) ((runSource source).after s).reader := by
  unfold sourceTakes runSource
  cases Program.ofSource source with
  | error e => rfl
  | ok p => exact p.gives_takes s

/-- Asking for a line takes one off the reader, or none. -/
theorem gives_lineTakes (taker : Taker) (prompt : String) (s : Session) :
    s.reader.Gives (lineTakes taker prompt s) ((readLine prompt).after s).reader := by
  have same := reader_after_announce prompt s
  unfold lineTakes readLine
  cases shown : announce prompt s with
  | ok _ u =>
    rw [after_of_ok shown] at same
    rw [after_bind_of_ok shown, after_takeLine, ← same]
    exact ⟨rfl, rfl⟩
  | error e u =>
    rw [after_of_error shown] at same
    rw [after_bind_of_error shown]
    exact same

end Effect

/-! ## Sessions that read their programs -/

namespace Session

open Effect

set_option linter.unusedVariables false in
/-- The lines that are taken when the lines of the reader are run as programs. -/
def promptTakes (s : Session) (errors : Writer) : List Take :=
  lineTakes .programLine programPrompt s ++
    match hl : readLine programPrompt s with
    | .error _ _ => []
    | .ok none _ => []
    | .ok (some line) s₁ =>
      sourceTakes line s₁ ++
        match hr : runSource line s₁ with
        | .ok .halted _ => []
        | .ok .completed s₂ => s₂.promptTakes errors
        | .error e s₂ =>
          match errors.report e with
          | (.ok _, errors) => s₂.promptTakes errors
          | (.error _, _) => []
termination_by s.reader.bytes.length
decreasing_by
  · exact bytes_lt_of_runSource hl (after_of_ok hr)
  · exact bytes_lt_of_runSource hl (after_of_error hr)

variable {s s₁ : Session} {errors : Writer} {line : String}

/-- Without a line, only the read that found none is made. -/
theorem promptTakes_of_no_line
    (none : ∀ line s₁, readLine programPrompt s ≠ .ok (some line) s₁) :
    s.promptTakes errors = lineTakes .programLine programPrompt s := by
  rw [promptTakes]
  split
  · exact List.append_nil _
  · exact List.append_nil _
  · rename_i read
    exact absurd read (none _ _)

theorem promptTakes_of_line (read : readLine programPrompt s = .ok (some line) s₁) :
    s.promptTakes errors = lineTakes .programLine programPrompt s ++
      (sourceTakes line s₁ ++ match runSource line s₁ with
        | .ok .halted _ => []
        | .ok .completed s₂ => s₂.promptTakes errors
        | .error e s₂ =>
          match errors.report e with
          | (.ok _, errors) => s₂.promptTakes errors
          | (.error _, _) => []) := by
  rw [promptTakes]
  split
  · rename_i read'
    cases read.symm.trans read'
  · rename_i read'
    cases read.symm.trans read'
  · rename_i read'
    cases read.symm.trans read'
    split
    · rename_i ran
      rw [ran]
    · rename_i ran
      rw [ran]
    · rename_i e s₂ ran
      rcases told : errors.report e with ⟨_ | _, _⟩ <;> simp only [ran, told]

/-- Turn by turn, the lines are taken that the programs and their `input`s read. -/
theorem gives_promptTakes (s : Session) (errors : Writer) :
    s.reader.Gives (s.promptTakes errors) (s.runPrompt errors).session.reader := by
  have first := gives_lineTakes .programLine programPrompt s
  cases read : readLine programPrompt s with
  | error e s₁ =>
    have noLine : ∀ line u, readLine programPrompt s ≠ .ok (some line) u := by
      intro line u
      rw [read]
      nofun
    rw [after_of_error read] at first
    rw [promptTakes_of_no_line noLine, runPrompt_of_error read]
    exact first
  | ok line s₁ =>
    rw [after_of_ok read] at first
    cases line with
    | none =>
      have noLine : ∀ line u, readLine programPrompt s ≠ .ok (some line) u := by
        intro line u
        rw [read]
        nofun
      rw [promptTakes_of_no_line noLine, runPrompt_of_end read]
      exact first
    | some line =>
      rw [promptTakes_of_line read, runPrompt_of_line read]
      refine Reader.gives_append.mpr ⟨_, first, ?_⟩
      have inner := gives_sourceTakes line s₁
      cases ran : runSource line s₁ with
      | error e s₂ =>
        rw [after_of_error ran] at inner
        refine Reader.gives_append.mpr ⟨_, inner, ?_⟩
        dsimp only
        rcases errors.report e with ⟨_ | _, errors'⟩
        · rfl
        · exact s₂.gives_promptTakes errors'
      | ok outcome s₂ =>
        rw [after_of_ok ran] at inner
        refine Reader.gives_append.mpr ⟨_, inner, ?_⟩
        cases outcome with
        | completed => exact s₂.gives_promptTakes errors
        | halted => rfl
termination_by s.reader.bytes.length
decreasing_by
  · exact bytes_lt_of_runSource read (after_of_ok ran)
  · exact bytes_lt_of_runSource read (after_of_error ran)

end Session

/-! ## Dialogues -/

namespace Dialogue

/-- The lines that are taken to answer a request. -/
def takesOf (d : Dialogue) : Request → List Take
  | .run source => Effect.sourceTakes source d.session
  | .again =>
    match d.last with
    | some p => p.takes d.session
    | none => []
  | .variable _ => []
  | .readLine prompt => Effect.lineTakes .request prompt d.session
  | .setPrompt _ => []
  | .runPrompt errors => d.session.promptTakes errors

/-- The lines that are taken to answer requests one after the other. -/
def takes (d : Dialogue) : List Request → List Take
  | [] => []
  | request :: rest => d.takesOf request ++ (d.answer request).2.takes rest

theorem session_perform {α : Type} (d : Dialogue) (effect : Effect α) :
    (d.perform effect).2.session = effect.after d.session := by
  unfold perform Effect.after
  cases effect d.session <;> rfl

/-- Answering a request takes whole lines off the reader. -/
theorem gives_takesOf (d : Dialogue) (request : Request) :
    d.session.reader.Gives (d.takesOf request) (d.answer request).2.session.reader := by
  cases request with
  | run source =>
    dsimp only [takesOf, Effect.sourceTakes, answer]
    cases Program.ofSource source with
    | error e => rfl
    | ok p =>
      show d.session.reader.Gives _ (perform _ _).2.session.reader
      rw [session_perform]
      exact p.gives_takes d.session
  | again =>
    dsimp only [takesOf, answer]
    cases d.last with
    | none => rfl
    | some p =>
      show d.session.reader.Gives _ (perform _ _).2.session.reader
      rw [session_perform]
      exact p.gives_takes d.session
  | «variable» name => rfl
  | readLine prompt =>
    show d.session.reader.Gives _ (perform _ _).2.session.reader
    rw [session_perform]
    exact Effect.gives_lineTakes .request prompt d.session
  | setPrompt prompt => rfl
  | runPrompt errors => exact d.session.gives_promptTakes errors

/-- Answering requests takes whole lines off the reader, one request after the other. -/
theorem gives_takes (d : Dialogue) (requests : List Request) :
    d.session.reader.Gives (d.takes requests) (d.answers requests).2.session.reader := by
  induction requests generalizing d with
  | nil => rfl
  | cons request rest ih =>
    exact Reader.gives_append.mpr ⟨_, d.gives_takesOf request, ih _⟩

/-- The reader of a session loses nothing and gives nothing twice.  Whatever is requested, the lines
    that are taken and behind them the bytes that are left are the bytes that there were, and each
    read has found all bytes behind the lines that were taken before it.  It takes one whole line,
    and none only if there is none.  A program takes the lines of the `input`s that are evaluated
    and whose prompt can be shown; whenever one of its expressions is evaluated, the bytes are left
    that stand behind the lines taken so far.  A text that is no program takes none. -/
theorem takes_exact (d : Dialogue) (requests : List Request) :
    (d.takes requests).flatMap Take.line ++ (d.answers requests).2.session.reader.bytes =
      d.session.reader.bytes ∧
    (∀ before take after, d.takes requests = before ++ take :: after →
      before.flatMap Take.line ++ take.reader.bytes = d.session.reader.bytes ∧
      ∃ behind, take.line ++ behind = take.reader.bytes ∧ IsWholeLine take.line behind ∧
        (take.line = [] ↔ take.reader.bytes = [])) ∧
    (∀ (p : Program) (s : Session), (∀ take, take ∈ p.takes s ↔ take.IsAskedIn (p.Evaluates s)) ∧
      ∀ e u, p.Evaluates s e u → ∃ before, before <+: p.takes s ∧
        before.flatMap Take.line ++ u.reader.bytes = s.reader.bytes) ∧
    (∀ (source : String) (s : Session) (e : Error), Program.ofSource source = .error e →
      Effect.sourceTakes source s = [] ∧ (Effect.runSource source).after s = s) := by
  have gives := d.gives_takes requests
  refine ⟨gives.bytes, ?_, ?_, ?_⟩
  · intro before take after split
    rw [split] at gives
    obtain ⟨_, first, rfl, _⟩ := Reader.gives_append.mp gives
    exact ⟨first.bytes, _, take.reader.nextLine_append_bytes_skipLine,
      take.reader.isWholeLine_nextLine, take.reader.nextLine_eq_nil_iff⟩
  · intro p s
    refine ⟨p.mem_takes_iff s, ?_⟩
    intro e u evaluated
    obtain ⟨before, first, gives⟩ := Program.exists_taken evaluated
    exact ⟨before, first, gives.bytes⟩
  · intro source s e none
    constructor
    · rw [Effect.sourceTakes, none]
    · rw [Effect.runSource, none]
      rfl

end Dialogue

end NumScript
