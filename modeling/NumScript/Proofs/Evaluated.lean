/-
  Which lines the `input`s of a program take.

  Running a program comes to evaluating some of its expressions, each in the session that the run
  has got to by then: the right operand only behind a left one that gave a value, a branch only if
  the condition says so, and a statement only if those before it were completed
  (`Expr.Evaluates`, `Stmt.Evaluates`).  What stands in another branch, behind a `halt` or behind an
  error is not evaluated.

  A line is taken by every `input` that is evaluated and whose prompt can be shown, and by nothing
  else (`Program.mem_takes_iff`).  This is shown by induction over the tree: whatever is done in two
  steps takes the lines of the first step and, if that gave a value, those of the second
  (`Effect.Does.mem_takes_bind`).  And at any moment of the run, the reader is where the last line
  ended that had been taken by then (`Program.exists_taken`).
-/
import NumScript.Proofs.Takes

namespace NumScript

/-! ## What is evaluated -/

/-- To evaluate the first expression in its session, the second one is evaluated in the other
    session, as a part of the first or as itself. -/
inductive Expr.Evaluates : Expr → Session → Expr → Session → Prop where
  | self (e : Expr) (s : Session) : Evaluates e s e s
  | assign {name : Token} {value e : Expr} {s u : Session} :
    Evaluates value s e u → Evaluates (.assign name value) s e u
  | left {left right e : Expr} {op : Token} {s u : Session} :
    Evaluates left s e u → Evaluates (.binary left op right) s e u
  | right {left right e : Expr} {op : Token} {s s' u : Session} {x : Float} :
    left.value s = .ok x s' → Evaluates right s' e u → Evaluates (.binary left op right) s e u
  | print {keyword : Token} {value e : Expr} {s u : Session} :
    Evaluates value s e u → Evaluates (.print keyword value) s e u
  | unary {op : Token} {operand e : Expr} {s u : Session} :
    Evaluates operand s e u → Evaluates (.unary op operand) s e u

mutual

/-- To execute the statement, the expression is evaluated in the second session. -/
inductive Stmt.Evaluates : Stmt → Session → Expr → Session → Prop where
  | block {brace : Token} {body : List Stmt} {s u : Session} {e : Expr} :
    Stmt.EvaluatesAll body s e u → Stmt.Evaluates (.block brace body) s e u
  | expression {whole e : Expr} {s u : Session} :
    whole.Evaluates s e u → Stmt.Evaluates (.expression whole) s e u
  | ifCondition {keyword : Token} {condition e : Expr} {thenBranch : Stmt} {s u : Session} :
    condition.Evaluates s e u → Stmt.Evaluates (.ifThen keyword condition thenBranch) s e u
  | ifBranch {keyword : Token} {condition e : Expr} {thenBranch : Stmt} {s s' u : Session} :
    condition.holds s = .ok true s' → Stmt.Evaluates thenBranch s' e u →
    Stmt.Evaluates (.ifThen keyword condition thenBranch) s e u
  | elseCondition {keyword : Token} {condition e : Expr} {thenBranch elseBranch : Stmt}
    {s u : Session} : condition.Evaluates s e u →
    Stmt.Evaluates (.ifElse keyword condition thenBranch elseBranch) s e u
  | thenBranch {keyword : Token} {condition e : Expr} {thenBranch elseBranch : Stmt}
    {s s' u : Session} : condition.holds s = .ok true s' → Stmt.Evaluates thenBranch s' e u →
    Stmt.Evaluates (.ifElse keyword condition thenBranch elseBranch) s e u
  | elseBranch {keyword : Token} {condition e : Expr} {thenBranch elseBranch : Stmt}
    {s s' u : Session} : condition.holds s = .ok false s' → Stmt.Evaluates elseBranch s' e u →
    Stmt.Evaluates (.ifElse keyword condition thenBranch elseBranch) s e u

/-- To execute the statements in order, the expression is evaluated in the second session. -/
inductive Stmt.EvaluatesAll : List Stmt → Session → Expr → Session → Prop where
  | first {first : Stmt} {rest : List Stmt} {s u : Session} {e : Expr} :
    Stmt.Evaluates first s e u → Stmt.EvaluatesAll (first :: rest) s e u
  | later {first : Stmt} {rest : List Stmt} {s s' u : Session} {e : Expr} :
    first.exec s = .ok .completed s' → Stmt.EvaluatesAll rest s' e u →
    Stmt.EvaluatesAll (first :: rest) s e u

end

/-- To run the program, the expression is evaluated in the second session. -/
def Program.Evaluates (p : Program) : Session → Expr → Session → Prop :=
  Stmt.EvaluatesAll p.body

/-! ## Lines of inputs -/

/-- The line is taken by one of the `input`s that are evaluated, after its prompt was shown. -/
def Take.IsAskedIn (take : Take) (evaluated : Expr → Session → Prop) : Prop :=
  ∃ keyword u, evaluated (.input keyword) u ∧ (∃ u', Effect.showPrompt u = .ok () u') ∧
    take = ⟨.input keyword, u.reader⟩

/-- Who asks for a line depends only on the `input`s that are evaluated. -/
theorem Take.isAskedIn_congr {take : Take} {evaluated evaluated' : Expr → Session → Prop}
    (h : ∀ keyword u, evaluated (.input keyword) u ↔ evaluated' (.input keyword) u) :
    take.IsAskedIn evaluated ↔ take.IsAskedIn evaluated' := by
  unfold IsAskedIn
  simp only [h]

/-- Where no `input` is evaluated, no line is taken. -/
theorem Take.mem_nil_iff {take : Take} {evaluated : Expr → Session → Prop}
    (h : ∀ keyword u, ¬ evaluated (.input keyword) u) : take ∈ [] ↔ take.IsAskedIn evaluated := by
  refine iff_of_false List.not_mem_nil ?_
  rintro ⟨keyword, u, no, _⟩
  exact h keyword u no

namespace Effect

variable {α β : Type} {a : Effect α} {t : Session → List Action}
  {u : α → Session → List Action} {s : Session} {take : Take}

/-- What is evaluated first and what is evaluated next, if the first step gives a value, take the
    lines of both. -/
theorem Does.mem_takes_iff {evaluated first : Expr → Session → Prop} (h : Does a t)
    (next : α → Session → Expr → Session → Prop)
    (one : take ∈ Action.takes (t s) s ↔ take.IsAskedIn first)
    (two : ∀ x s', take ∈ Action.takes (u x s') s' ↔ take.IsAskedIn (next x s'))
    (both : ∀ keyword v, evaluated (.input keyword) v ↔
      first (.input keyword) v ∨ ∃ x s', a s = .ok x s' ∧ next x s' (.input keyword) v) :
    take ∈ Action.takes (t s ++ a.andThen u s) s ↔ take.IsAskedIn evaluated := by
  rw [h.mem_takes_bind, one]
  constructor
  · rintro (⟨keyword, v, evaluated, shown⟩ | ⟨x, s', run, later⟩)
    · exact ⟨keyword, v, (both keyword v).mpr (.inl evaluated), shown⟩
    · obtain ⟨keyword, v, evaluated, shown⟩ := (two x s').mp later
      exact ⟨keyword, v, (both keyword v).mpr (.inr ⟨x, s', run, evaluated⟩), shown⟩
  · rintro ⟨keyword, v, evaluated, shown⟩
    rcases (both keyword v).mp evaluated with here | ⟨x, s', run, later⟩
    · exact .inl ⟨keyword, v, here, shown⟩
    · exact .inr ⟨x, s', run, (two x s').mpr ⟨keyword, v, later, shown⟩⟩

/-- What is done after a value was found, but takes no line, adds none. -/
theorem Does.mem_takes_silently {evaluated : Expr → Session → Prop} (h : Does a t)
    (one : take ∈ Action.takes (t s) s ↔ take.IsAskedIn evaluated)
    (quiet : ∀ x s', Action.takes (u x s') s' = []) :
    take ∈ Action.takes (t s ++ a.andThen u s) s ↔ take.IsAskedIn evaluated := by
  refine h.mem_takes_iff (fun _ _ _ _ => False) one (fun x s' => ?_) fun keyword v => ?_
  · rw [quiet]
    exact Take.mem_nil_iff fun _ _ no => no
  · simp only [and_false, exists_false, or_false]

/-- Showing the prompt takes no line. -/
theorem reader_of_showPrompt {s s' : Session} (h : showPrompt s = .ok () s') :
    s'.reader = s.reader := by
  rw [showPrompt_eq] at h
  cases prompt : s.prompt with
  | none =>
    simp only [prompt] at h
    cases h
    rfl
  | some text =>
    simp only [prompt] at h
    rw [← after_of_ok h, reader_after_announce]

end Effect

open Effect

/-! ## Expressions -/

/-- An `input` takes a line if its prompt can be shown. -/
theorem Expr.mem_takes_input (keyword : Token) {s : Session} {take : Take} :
    take ∈ Action.takes ((Expr.input keyword).trace s) s ↔
      take.IsAskedIn ((Expr.input keyword).Evaluates s) := by
  have prompts : Action.takes ((s.prompt.map (.prompt keyword)).toList) s = [] := by
    cases s.prompt <;> rfl
  show take ∈ Action.takes (_ ++ Effect.showPrompt.andThen _ s) s ↔ _
  rw [(Does.showPrompt keyword).mem_takes_bind, prompts]
  constructor
  · rintro (no | ⟨_, s', shown, mem⟩)
    · cases no
    · obtain rfl := List.mem_singleton.mp mem
      refine ⟨keyword, s, .self _ s, ⟨s', shown⟩, ?_⟩
      rw [reader_of_showPrompt shown]
  · rintro ⟨_, _, ⟨⟩, ⟨s', shown⟩, rfl⟩
    refine .inr ⟨(), s', shown, ?_⟩
    rw [← reader_of_showPrompt shown]
    exact List.mem_singleton_self _

/-- The lines that an expression takes are those of the `input`s that are evaluated in it. -/
theorem Expr.mem_takes_iff (e : Expr) (s : Session) (take : Take) :
    take ∈ Action.takes (e.trace s) s ↔ take.IsAskedIn (e.Evaluates s) := by
  induction e generalizing s with
  | assign name value ih =>
    have first : take ∈ Action.takes ((Expr.assign name value).trace s) s ↔
        take.IsAskedIn (value.Evaluates s) :=
      (does_value value.does_eval).mem_takes_silently (ih s) fun _ _ => rfl
    refine first.trans (Take.isAskedIn_congr fun keyword u => ⟨.assign, fun h => ?_⟩)
    cases h with
    | assign inner => exact inner
  | binary left op right ih ih' =>
    refine (does_value left.does_eval).mem_takes_iff (fun _ => right.Evaluates) (ih s)
      (fun x s' => ih' s') fun keyword u => ⟨fun h => ?_, ?_⟩
    · cases h with
      | left inner => exact .inl inner
      | right run inner => exact .inr ⟨_, _, run, inner⟩
    · rintro (inner | ⟨x, s', run, inner⟩)
      · exact .left inner
      · exact .right run inner
  | input keyword => exact mem_takes_input keyword
  | literal token value =>
    exact Take.mem_nil_iff fun _ _ no => nomatch no
  | print keyword value ih =>
    have first : take ∈ Action.takes ((Expr.print keyword value).trace s) s ↔
        take.IsAskedIn (value.Evaluates s) :=
      (does_value value.does_eval).mem_takes_silently (ih s) fun _ _ => rfl
    refine first.trans (Take.isAskedIn_congr fun keyword u => ⟨.print, fun h => ?_⟩)
    cases h with
    | print inner => exact inner
  | unary op operand ih =>
    refine (ih s).trans (Take.isAskedIn_congr fun keyword u => ⟨.unary, fun h => ?_⟩)
    cases h with
    | unary inner => exact inner
  | var name =>
    exact Take.mem_nil_iff fun _ _ no => nomatch no

/-! ## Statements -/

mutual

/-- The lines that a statement takes are those of the `input`s that are evaluated in it. -/
theorem Stmt.mem_takes_iff (take : Take) : ∀ (stmt : Stmt) (s : Session),
    take ∈ Action.takes (stmt.trace s) s ↔ take.IsAskedIn (stmt.Evaluates s)
  | .block brace body, s => by
    rw [Stmt.trace]
    refine (mem_takesAll_iff take body s).trans
      (Take.isAskedIn_congr fun keyword u => ⟨.block, fun h => ?_⟩)
    cases h with
    | block inner => exact inner
  | .expression e, s => by
    rw [Stmt.trace]
    refine (e.mem_takes_iff s take).trans
      (Take.isAskedIn_congr fun keyword u => ⟨.expression, fun h => ?_⟩)
    cases h with
    | expression inner => exact inner
  | .halt keyword, s => by
    rw [Stmt.trace]
    exact Take.mem_nil_iff fun _ _ no => nomatch no
  | .ifThen keyword condition thenBranch, s => by
    rw [Stmt.trace]
    refine condition.does_holds.mem_takes_iff
      (fun b s' => if b then thenBranch.Evaluates s' else fun _ _ => False)
      (condition.mem_takes_iff s take) (fun b s' => ?_) fun keyword u => ⟨fun h => ?_, ?_⟩
    · cases b with
      | true => exact mem_takes_iff take thenBranch s'
      | false => exact Take.mem_nil_iff fun _ _ no => no
    · cases h with
      | ifCondition inner => exact .inl inner
      | ifBranch run inner => exact .inr ⟨_, _, run, inner⟩
    · rintro (inner | ⟨b, s', run, inner⟩)
      · exact .ifCondition inner
      · cases b with
        | true => exact .ifBranch run inner
        | false => cases inner
  | .ifElse keyword condition thenBranch elseBranch, s => by
    rw [Stmt.trace]
    refine condition.does_holds.mem_takes_iff
      (fun b s' => if b then thenBranch.Evaluates s' else elseBranch.Evaluates s')
      (condition.mem_takes_iff s take) (fun b s' => ?_) fun keyword u => ⟨fun h => ?_, ?_⟩
    · cases b with
      | true => exact mem_takes_iff take thenBranch s'
      | false => exact mem_takes_iff take elseBranch s'
    · cases h with
      | elseCondition inner => exact .inl inner
      | thenBranch run inner => exact .inr ⟨_, _, run, inner⟩
      | elseBranch run inner => exact .inr ⟨_, _, run, inner⟩
    · rintro (inner | ⟨b, s', run, inner⟩)
      · exact .elseCondition inner
      · cases b with
        | true => exact .thenBranch run inner
        | false => exact .elseBranch run inner

theorem Stmt.mem_takesAll_iff (take : Take) : ∀ (body : List Stmt) (s : Session),
    take ∈ Action.takes (traceAll body s) s ↔ take.IsAskedIn (EvaluatesAll body s)
  | [], s => by
    rw [Stmt.traceAll]
    exact Take.mem_nil_iff fun _ _ no => nomatch no
  | stmt :: rest, s => by
    rw [Stmt.traceAll]
    refine stmt.does_exec.mem_takes_iff
      (fun
        | .completed => EvaluatesAll rest
        | .halted => fun _ _ _ => False)
      (mem_takes_iff take stmt s) (fun outcome s' => ?_) fun keyword u => ⟨fun h => ?_, ?_⟩
    · cases outcome with
      | completed => exact mem_takesAll_iff take rest s'
      | halted => exact Take.mem_nil_iff fun _ _ no => no
    · cases h with
      | first inner => exact .inl inner
      | later run inner => exact .inr ⟨_, _, run, inner⟩
    · rintro (inner | ⟨outcome, s', run, inner⟩)
      · exact .first inner
      · cases outcome with
        | completed => exact .later run inner
        | halted => cases inner

end

/-- The lines that are taken by a program are those of the `input`s that are evaluated. -/
theorem Program.mem_takes_iff (p : Program) (s : Session) (take : Take) :
    take ∈ p.takes s ↔ take.IsAskedIn (p.Evaluates s) :=
  Stmt.mem_takesAll_iff take p.body s

/-! ## Moments of a run -/

/-- Where the actions are performed from the first session on, the second session is come to, and
    these inner actions are the next. -/
def Action.Passes (actions inner : List Action) (s v : Session) : Prop :=
  ∃ before after, actions = before ++ (inner ++ after) ∧ afterAll before s = v

/-- What is passed among some actions is passed among more of them. -/
theorem Action.Passes.append {actions inner : List Action} {s v : Session}
    (h : Passes actions inner s v) (actions' : List Action) :
    Passes (actions ++ actions') inner s v := by
  obtain ⟨before, after, rfl, here⟩ := h
  refine ⟨before, after ++ actions', ?_, here⟩
  rw [List.append_assoc, List.append_assoc]

/-- What comes in the second of two steps comes behind all actions of the first. -/
theorem Effect.Does.passes {α : Type} {a : Effect α} {t : Session → List Action}
    {u : α → Session → List Action} {inner : List Action} {s s' v : Session} {x : α}
    (h : Does a t) (run : a s = .ok x s') (later : Action.Passes (u x s') inner s' v) :
    Action.Passes (t s ++ a.andThen u s) inner s v := by
  obtain ⟨before, after, split, here⟩ := later
  refine ⟨t s ++ before, after, ?_, ?_⟩
  · rw [andThen_of_ok run, split, List.append_assoc]
  · rw [Action.afterAll_append, ← h.after_eq, after_of_ok run, here]

/-- An expression that is evaluated does its actions in the session in which it is evaluated, and
    the actions before them have led there. -/
theorem Expr.Evaluates.passes {whole e : Expr} {s v : Session} (h : whole.Evaluates s e v) :
    Action.Passes (whole.trace s) (e.trace v) s v := by
  induction h with
  | self e s => exact ⟨[], [], (List.append_nil _).symm, rfl⟩
  | assign _ ih => exact ih.append _
  | left _ ih => exact ih.append _
  | @right left _ _ _ _ _ _ _ run _ ih => exact (does_value left.does_eval).passes run ih
  | print _ ih => exact ih.append _
  | unary _ ih => exact ih

mutual

/-- When an expression is evaluated in a statement, its actions are the next of the statement. -/
theorem Stmt.Evaluates.passes : ∀ {stmt : Stmt} {s v : Session} {e : Expr}, stmt.Evaluates s e v →
    Action.Passes (stmt.trace s) (e.trace v) s v
  | _, _, _, _, .block inner => by
    rw [Stmt.trace]
    exact inner.passes
  | _, _, _, _, .expression inner => by
    rw [Stmt.trace]
    exact inner.passes
  | _, _, _, _, .ifCondition inner => by
    rw [Stmt.trace]
    exact inner.passes.append _
  | .ifThen _ condition _, _, _, _, .ifBranch run inner => by
    rw [Stmt.trace]
    exact condition.does_holds.passes run inner.passes
  | _, _, _, _, .elseCondition inner => by
    rw [Stmt.trace]
    exact inner.passes.append _
  | .ifElse _ condition _ _, _, _, _, .thenBranch run inner => by
    rw [Stmt.trace]
    exact condition.does_holds.passes run inner.passes
  | .ifElse _ condition _ _, _, _, _, .elseBranch run inner => by
    rw [Stmt.trace]
    exact condition.does_holds.passes run inner.passes

theorem Stmt.EvaluatesAll.passes : ∀ {body : List Stmt} {s v : Session} {e : Expr},
    Stmt.EvaluatesAll body s e v → Action.Passes (traceAll body s) (e.trace v) s v
  | _, _, _, _, .first inner => by
    rw [Stmt.traceAll]
    exact inner.passes.append _
  | first :: _, _, _, _, .later run inner => by
    rw [Stmt.traceAll]
    exact first.does_exec.passes run inner.passes

end

/-- Whenever an expression is evaluated, some of the actions of the program have been performed, and
    its own are the next. -/
theorem Program.Evaluates.passes {p : Program} {e : Expr} {s v : Session} (h : p.Evaluates s e v) :
    Action.Passes (p.trace s) (e.trace v) s v :=
  Stmt.EvaluatesAll.passes h

/-- Whenever an expression is evaluated, some of the lines of the program have been taken, and the
    reader is where the last of them ended. -/
theorem Program.exists_taken {p : Program} {e : Expr} {s v : Session} (h : p.Evaluates s e v) :
    ∃ before, before <+: p.takes s ∧ s.reader.Gives before v.reader := by
  obtain ⟨before, after, split, rfl⟩ := Evaluates.passes h
  refine ⟨Action.takes before s, ?_, Action.gives_takes before s⟩
  rw [takes, split, Action.takes_append]
  exact List.prefix_append _ _

end NumScript
