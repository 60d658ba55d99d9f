/-
  One store for all.

  All programs that are run in one session share its store.  They are run one after the other: the
  source texts that are requested, the last program again, and the lines of the reader that are run
  as programs (`Dialogue.runs`).  Each of them finds the store that the writes of those before it
  have left (`Store.Leads`), and nothing else touches the store.  So a variable always has the value
  that was written to it last, by whatever program, and however that has ended
  (`Dialogue.variable_eq_last_write`).
-/
import NumScript.Proofs.Assignments
import NumScript.Proofs.SharedReader

namespace NumScript

/-- A program being run. -/
structure Run where
  /-- The program. -/
  program : Program
  /-- The session before that. -/
  session : Session

/-- What is written in a run. -/
def Run.writes (run : Run) : List (String × Float) :=
  run.program.writes run.session

namespace Store

/-- Programs are run one after the other, the first of them with the first store, and the second
    store is left. -/
def Leads : Store → List Run → Store → Prop
  | store, [], store' => store' = store
  | store, run :: rest, store' =>
    run.session.store = store ∧ (store.setAll run.writes).Leads rest store'

/-- The runs of joined lists follow each other from the store between them. -/
theorem leads_append {store store' : Store} {runs runs' : List Run} :
    store.Leads (runs ++ runs') store' ↔ ∃ m, store.Leads runs m ∧ m.Leads runs' store' := by
  induction runs generalizing store with
  | nil =>
    constructor
    · intro h
      exact ⟨store, rfl, h⟩
    · rintro ⟨_, rfl, h⟩
      exact h
  | cons run rest ih =>
    constructor
    · rintro ⟨here, h⟩
      obtain ⟨m, first, second⟩ := ih.mp h
      exact ⟨m, ⟨here, first⟩, second⟩
    · rintro ⟨m, ⟨here, first⟩, second⟩
      exact ⟨here, ih.mpr ⟨m, first, second⟩⟩

/-- The store holds what all runs have written. -/
theorem Leads.eq {store store' : Store} {runs : List Run} (h : store.Leads runs store') :
    store' = store.setAll (runs.flatMap Run.writes) := by
  induction runs generalizing store with
  | nil => exact h
  | cons run rest ih =>
    obtain ⟨_, others⟩ := h
    rw [ih others, List.flatMap_cons, setAll_append]

end Store

/-! ## Source texts and lines -/

namespace Effect

/-- The program that is run when a source text is, if it is one. -/
def sourceRuns (source : String) (s : Session) : List Run :=
  match Program.ofSource source with
  | .ok p => [⟨p, s⟩]
  | .error _ => []

/-- A run leads from the store in which it begins to that which it leaves. -/
theorem leads_run (p : Program) (s : Session) :
    s.store.Leads [⟨p, s⟩] (p.run.after s).store :=
  ⟨rfl, p.store_after_run s⟩

/-- Running a source text leads from the store to that which it leaves. -/
theorem leads_sourceRuns (source : String) (s : Session) :
    s.store.Leads (sourceRuns source s) ((runSource source).after s).store := by
  unfold sourceRuns runSource
  cases Program.ofSource source with
  | error e => rfl
  | ok p => exact leads_run p s

/-- Reading a line leaves the store as it is. -/
theorem store_after_readLine (prompt : String) (s : Session) :
    ((readLine prompt).after s).store = s.store := by
  obtain ⟨writer, same⟩ := exists_after_announce prompt s
  refine after_bind (P := fun u => u.store = s.store) ?_ fun _ u h => ?_
  · rw [same]
  · rw [after_takeLine]
    exact h

end Effect

/-! ## Sessions that read their programs -/

namespace Session

open Effect

set_option linter.unusedVariables false in
/-- The programs that are run when the lines of the reader are. -/
def promptRuns (s : Session) (errors : Writer) : List Run :=
  match hl : readLine programPrompt s with
  | .error _ _ => []
  | .ok none _ => []
  | .ok (some line) s₁ =>
    sourceRuns line s₁ ++
      match hr : runSource line s₁ with
      | .ok .halted _ => []
      | .ok .completed s₂ => s₂.promptRuns errors
      | .error e s₂ =>
        match errors.report e with
        | (.ok _, errors) => s₂.promptRuns errors
        | (.error _, _) => []
termination_by s.reader.bytes.length
decreasing_by
  · exact bytes_lt_of_runSource hl (after_of_ok hr)
  · exact bytes_lt_of_runSource hl (after_of_error hr)

variable {s s₁ : Session} {errors : Writer} {line : String}

theorem promptRuns_of_no_line (none : ∀ line s₁, readLine programPrompt s ≠ .ok (some line) s₁) :
    s.promptRuns errors = [] := by
  rw [promptRuns]
  split
  · rfl
  · rfl
  · rename_i read
    exact absurd read (none _ _)

theorem promptRuns_of_line (read : readLine programPrompt s = .ok (some line) s₁) :
    s.promptRuns errors = sourceRuns line s₁ ++ match runSource line s₁ with
      | .ok .halted _ => []
      | .ok .completed s₂ => s₂.promptRuns errors
      | .error e s₂ =>
        match errors.report e with
        | (.ok _, errors) => s₂.promptRuns errors
        | (.error _, _) => [] := by
  rw [promptRuns]
  split
  · rename_i read'
    cases read.symm.trans read'
  · rename_i read'
    cases read.symm.trans read'
  · rename_i read'
    cases read.symm.trans read'
    split
    · rename_i ran
      rw [ran]
    · rename_i ran
      rw [ran]
    · rename_i e s₂ ran
      rcases told : errors.report e with ⟨_ | _, _⟩ <;> simp only [ran, told]

/-- Turn by turn, the programs are run with the store that those before them have left. -/
theorem leads_promptRuns (s : Session) (errors : Writer) :
    s.store.Leads (s.promptRuns errors) (s.runPrompt errors).session.store := by
  have first := store_after_readLine programPrompt s
  cases read : readLine programPrompt s with
  | error e s₁ =>
    have noLine : ∀ line u, readLine programPrompt s ≠ .ok (some line) u := by
      intro line u
      rw [read]
      nofun
    rw [after_of_error read] at first
    rw [promptRuns_of_no_line noLine, runPrompt_of_error read]
    exact first
  | ok line s₁ =>
    rw [after_of_ok read] at first
    cases line with
    | none =>
      have noLine : ∀ line u, readLine programPrompt s ≠ .ok (some line) u := by
        intro line u
        rw [read]
        nofun
      rw [promptRuns_of_no_line noLine, runPrompt_of_end read]
      exact first
    | some line =>
      have inner := leads_sourceRuns line s₁
      rw [promptRuns_of_line read, runPrompt_of_line read, ← first]
      cases ran : runSource line s₁ with
      | error e s₂ =>
        rw [after_of_error ran] at inner
        refine Store.leads_append.mpr ⟨_, inner, ?_⟩
        dsimp only
        rcases errors.report e with ⟨_ | _, errors'⟩
        · rfl
        · exact s₂.leads_promptRuns errors'
      | ok outcome s₂ =>
        rw [after_of_ok ran] at inner
        refine Store.leads_append.mpr ⟨_, inner, ?_⟩
        cases outcome with
        | completed => exact s₂.leads_promptRuns errors
        | halted => rfl
termination_by s.reader.bytes.length
decreasing_by
  · exact bytes_lt_of_runSource read (after_of_ok ran)
  · exact bytes_lt_of_runSource read (after_of_error ran)

end Session

/-! ## Dialogues -/

namespace Dialogue

/-- The programs that are run to answer a request. -/
def runsOf (d : Dialogue) : Request → List Run
  | .run source => Effect.sourceRuns source d.session
  | .again =>
    match d.last with
    | some p => [⟨p, d.session⟩]
    | none => []
  | .variable _ => []
  | .readLine _ => []
  | .setPrompt _ => []
  | .runPrompt errors => d.session.promptRuns errors

/-- The programs that are run to answer requests one after the other. -/
def runs (d : Dialogue) : List Request → List Run
  | [] => []
  | request :: rest => d.runsOf request ++ (d.answer request).2.runs rest

/-- What is written to the store while requests are answered. -/
def writes (d : Dialogue) (requests : List Request) : List (String × Float) :=
  (d.runs requests).flatMap Run.writes

/-- Answering a request leads from the store to that which it leaves. -/
theorem leads_runsOf (d : Dialogue) (request : Request) :
    d.session.store.Leads (d.runsOf request) (d.answer request).2.session.store := by
  cases request with
  | run source =>
    dsimp only [runsOf, Effect.sourceRuns, answer]
    cases Program.ofSource source with
    | error e => rfl
    | ok p =>
      show d.session.store.Leads _ (perform _ _).2.session.store
      rw [session_perform]
      exact Effect.leads_run p d.session
  | again =>
    dsimp only [runsOf, answer]
    cases d.last with
    | none => rfl
    | some p =>
      show d.session.store.Leads _ (perform _ _).2.session.store
      rw [session_perform]
      exact Effect.leads_run p d.session
  | «variable» name => rfl
  | readLine prompt =>
    show (perform _ _).2.session.store = d.session.store
    rw [session_perform]
    exact Effect.store_after_readLine prompt d.session
  | setPrompt prompt => rfl
  | runPrompt errors => exact d.session.leads_promptRuns errors

/-- Every program finds the store that those before it have left. -/
theorem leads_runs (d : Dialogue) (requests : List Request) :
    d.session.store.Leads (d.runs requests) (d.answers requests).2.session.store := by
  induction requests generalizing d with
  | nil => rfl
  | cons request rest ih =>
    exact Store.leads_append.mpr ⟨_, d.leads_runsOf request, ih _⟩

/-- The store holds the last write.  Whatever was requested before, the value of a variable is the
    one that was written last to exactly its name, or the one that it had at first if there is none;
    and each program was run with the store that all writes before it had left.  A program writes
    the values of the assignments that are evaluated, each when its right side has come to it:
    whenever an expression is evaluated, its writes are the next and the store holds those before
    them; a write is that of an evaluated assignment with this value, and the store holds those
    before it; and an assignment writes what its right side writes and then, unless that has failed,
    its value. -/
theorem variable_eq_last_write (d : Dialogue) (requests : List Request) :
    (∀ name, ((d.answers requests).2.answer (.variable name)).1 =
      .value ((lastWrite? name (d.writes requests)).or (d.session.store.get? name))) ∧
    (∀ before run after, d.runs requests = before ++ run :: after →
      run.session.store = d.session.store.setAll (before.flatMap Run.writes)) ∧
    (∀ (p : Program) (s : Session) (e : Expr) (u : Session), p.Evaluates s e u →
      ∃ before after, p.writes s = before ++ (e.writes u ++ after) ∧
        u.store = s.store.setAll before) ∧
    (∀ (p : Program) (s : Session) (before after : List (String × Float)) (name : String)
      (x : Float), p.writes s = before ++ (name, x) :: after →
      ∃ token value u u', token.lexeme = name ∧ p.Evaluates s (.assign token value) u ∧
        value.value u = .ok x u' ∧ u'.store = s.store.setAll before) ∧
    (∀ (name : Token) (value : Expr) (s : Session), (Expr.assign name value).writes s =
      value.writes s ++ match value.value s with
        | .ok x _ => [(name.lexeme, x)]
        | .error _ _ => []) := by
  have leads := d.leads_runs requests
  refine ⟨?_, ?_, ?_, ?_, Expr.writes_assign⟩
  · intro name
    show Reply.value ((d.answers requests).2.session.store.get? name) = _
    rw [leads.eq, Store.get?_setAll]
    rfl
  · intro before run after split
    rw [split] at leads
    obtain ⟨_, first, here, _⟩ := Store.leads_append.mp leads
    rw [here, first.eq]
  · intro p s e u evaluated
    exact Program.exists_writes evaluated
  · intro p s before after name x written
    exact Program.exists_of_writes written

end Dialogue

end NumScript
