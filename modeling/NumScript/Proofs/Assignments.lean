/-
  Which assignments a program makes, and when.

  The WRITES of a program are the values that it gives to variables, in the order in which it does
  so (`Program.writes`).  They are what its actions do to the store, and nothing else touches the
  store (`Effect.Does.store_after`); so after them a variable has the value that was written to it
  last, or the one that it had before if there is none (`Store.get?_setAll`).

  What is written is told by the assignments that are evaluated.  One whose right side gives a value
  writes this value, right behind all that its right side has written; one whose right side fails
  writes nothing of its own (`Expr.writes_assign`).  Whenever an expression is evaluated, its writes
  come next, and the store holds those before them (`Program.exists_writes`).  Conversely there is
  no write without an assignment that has come to this value (`Program.exists_of_writes`).
-/
import Mathlib.Data.List.Induction
import NumScript.Proofs.Evaluated

namespace NumScript

/-! ## Writes to the store -/

/-- The value that was written last to this name, if one was. -/
def lastWrite? (name : String) (writes : List (String × Float)) : Option Float :=
  writes.reverse.lookup name

/-- The store after some writes, the first of them first. -/
def Store.setAll (store : Store) (writes : List (String × Float)) : Store :=
  writes.foldl (fun store write => store.set write.1 write.2) store

/-- Writes can be made in two goes. -/
theorem Store.setAll_append (store : Store) (writes writes' : List (String × Float)) :
    store.setAll (writes ++ writes') = (store.setAll writes).setAll writes' :=
  List.foldl_append

/-- After some writes a variable has the value that was written last, or else the one it had. -/
theorem Store.get?_setAll (store : Store) (writes : List (String × Float)) (name : String) :
    (store.setAll writes).get? name = (lastWrite? name writes).or (store.get? name) := by
  induction writes using List.reverseRecOn with
  | nil => rfl
  | append_singleton writes write ih =>
    obtain ⟨other, value⟩ := write
    rw [setAll_append, lastWrite?, List.reverse_append, List.reverse_singleton,
      List.singleton_append, List.lookup_cons]
    show (Store.set _ other value).get? name = _
    rw [get?_set, ih, lastWrite?]
    by_cases same : name = other
    · rw [if_pos same.symm, beq_iff_eq.mpr same]
      rfl
    · rw [if_neg (Ne.symm same), beq_false_of_ne same]

namespace Action

/-- What the action writes to the store, if anything. -/
def write? : Action → Option (String × Float)
  | assign name value => some (name.lexeme, value)
  | _ => none

/-- What some actions write to the store. -/
def writes (actions : List Action) : List (String × Float) :=
  actions.filterMap write?

/-- What a list of actions writes is put together from its parts. -/
theorem writes_append (actions actions' : List Action) :
    writes (actions ++ actions') = writes actions ++ writes actions' :=
  List.filterMap_append

/-- An action does nothing to the store but what it writes. -/
theorem store_after_perform (action : Action) (s : Session) :
    (action.perform.after s).store = s.store.setAll (writes [action]) := by
  cases action with
  | assign name value => rfl
  | read keyword => rfl
  | prompt keyword text =>
    obtain ⟨w, same⟩ := Effect.exists_after_announce text s
    show ((Effect.announce text).after s).store = s.store
    rw [same]
  | print keyword value =>
    obtain ⟨w, same⟩ := Effect.exists_after_write (Numeral.write value ++ "\n") s
    show ((Effect.write (Numeral.write value ++ "\n")).after s).store = s.store
    rw [same]

/-- Actions do nothing to the store but what they write, in order. -/
theorem store_afterAll (actions : List Action) (s : Session) :
    (afterAll actions s).store = s.store.setAll (writes actions) := by
  induction actions generalizing s with
  | nil => rfl
  | cons action rest ih =>
    show (afterAll rest (action.perform.after s)).store = _
    rw [ih, store_after_perform, ← Store.setAll_append, ← writes_append, List.singleton_append]

end Action

/-- An effect does nothing to the store but what its actions write. -/
theorem Effect.Does.store_after {α : Type} {a : Effect α} {t : Session → List Action}
    (h : Does a t) (s : Session) :
    (a.after s).store = s.store.setAll (Action.writes (t s)) := by
  rw [h.after_eq, Action.store_afterAll]

/-! ## Writes of a program -/

/-- What evaluating an expression writes. -/
def Expr.writes (e : Expr) (s : Session) : List (String × Float) :=
  Action.writes (e.trace s)

/-- What running a program writes. -/
def Program.writes (p : Program) (s : Session) : List (String × Float) :=
  Action.writes (p.trace s)

namespace Expr

/-- An assignment writes what its right side writes, and then its value, if there is one. -/
theorem writes_assign (name : Token) (value : Expr) (s : Session) :
    (assign name value).writes s = value.writes s ++
      match value.value s with
      | .ok x _ => [(name.lexeme, x)]
      | .error _ _ => [] := by
  unfold writes
  rw [trace, Action.writes_append, Effect.andThen]
  cases value.value s <;> rfl

end Expr

/-! ## Assignments that are evaluated -/

/-- Every assignment among the actions, which are performed from this session on, is that of an
    assignment that is evaluated, and is made when the right side has come to the value. -/
def Action.AreAssignedIn (actions : List Action) (s : Session)
    (evaluated : Expr → Session → Prop) : Prop :=
  ∀ before name x after, actions = before ++ .assign name x :: after →
    ∃ value u, evaluated (.assign name value) u ∧ value.value u = .ok x (afterAll before s)

namespace Action.AreAssignedIn

variable {actions : List Action} {s : Session} {evaluated evaluated' : Expr → Session → Prop}

theorem of_writes_eq_nil (h : writes actions = []) : AreAssignedIn actions s evaluated := by
  rintro before name x after rfl
  rw [writes_append] at h
  cases (List.append_eq_nil_iff.mp h).2

theorem mono (h : AreAssignedIn actions s evaluated)
    (more : ∀ e u, evaluated e u → evaluated' e u) : AreAssignedIn actions s evaluated' := by
  intro before name x after split
  obtain ⟨value, u, inside, run⟩ := h before name x after split
  exact ⟨value, u, more _ u inside, run⟩

end Action.AreAssignedIn

/-- If the assignments of two steps are evaluated ones, so are those of both. -/
theorem Effect.Does.areAssignedIn {α : Type} {a : Effect α} {t : Session → List Action}
    {u : α → Session → List Action} {s : Session} {evaluated : Expr → Session → Prop}
    (h : Does a t) (one : Action.AreAssignedIn (t s) s evaluated)
    (two : ∀ x s', a s = .ok x s' → Action.AreAssignedIn (u x s') s' evaluated) :
    Action.AreAssignedIn (t s ++ a.andThen u s) s evaluated := by
  intro before name x after split
  have second (front : List Action) (behind : before = t s ++ front)
      (later : a.andThen u s = front ++ .assign name x :: after) : ∃ value v,
      evaluated (.assign name value) v ∧ value.value v = .ok x (Action.afterAll before s) := by
    cases run : a s with
    | ok y s' =>
      rw [andThen_of_ok run] at later
      rw [behind, Action.afterAll_append, ← h.after_eq, after_of_ok run]
      exact two y s' run front name x after later
    | error e s' =>
      rw [andThen_of_error run] at later
      cases front <;> cases later
  rcases List.append_eq_append_iff.mp split with ⟨front, behind, later⟩ | ⟨rest, here, later⟩
  · exact second front behind later
  · cases rest with
    | nil =>
      rw [List.append_nil] at here
      exact second [] (by rw [List.append_nil, here]) later.symm
    | cons action rest =>
      obtain ⟨rfl, _⟩ := List.cons.inj later
      exact one before name x rest here

/-- All that an expression assigns is assigned by assignments that are evaluated in it. -/
theorem Expr.areAssignedIn (e : Expr) (s : Session) :
    Action.AreAssignedIn (e.trace s) s (e.Evaluates s) := by
  induction e generalizing s with
  | assign name value ih =>
    have inner : Action.AreAssignedIn (value.trace s) s ((Expr.assign name value).Evaluates s) :=
      (ih s).mono fun _ _ => .assign
    refine (does_value value.does_eval).areAssignedIn inner fun x s' run => ?_
    rintro before name' x' after split
    cases before with
    | nil =>
      obtain ⟨⟨⟩, _⟩ := List.cons.inj split
      exact ⟨value, s, .self _ s, run⟩
    | cons _ more =>
      obtain ⟨_, no⟩ := List.cons.inj split
      cases more <;> cases no
  | binary left op right ih ih' =>
    exact (does_value left.does_eval).areAssignedIn ((ih s).mono fun _ _ => .left)
      fun x s' run => (ih' s').mono fun _ _ => .right run
  | input keyword =>
    refine (Effect.Does.showPrompt keyword).areAssignedIn (.of_writes_eq_nil ?_)
      fun _ s' _ => .of_writes_eq_nil rfl
    cases s.prompt <;> rfl
  | literal token value => exact .of_writes_eq_nil rfl
  | print keyword value ih =>
    exact (does_value value.does_eval).areAssignedIn ((ih s).mono fun _ _ => .print)
      fun _ _ _ => .of_writes_eq_nil rfl
  | unary op operand ih => exact (ih s).mono fun _ _ => .unary
  | var name => exact .of_writes_eq_nil rfl

mutual

/-- All that a statement assigns is assigned by assignments that are evaluated in it. -/
theorem Stmt.areAssignedIn : ∀ (stmt : Stmt) (s : Session),
    Action.AreAssignedIn (stmt.trace s) s (stmt.Evaluates s)
  | .block brace body, s => by
    rw [Stmt.trace]
    exact (areAssignedIn_all body s).mono fun _ _ => .block
  | .expression e, s => by
    rw [Stmt.trace]
    exact (e.areAssignedIn s).mono fun _ _ => .expression
  | .halt keyword, s => by
    rw [Stmt.trace]
    exact .of_writes_eq_nil rfl
  | .ifThen keyword condition thenBranch, s => by
    rw [Stmt.trace]
    refine condition.does_holds.areAssignedIn
      ((condition.areAssignedIn s).mono fun _ _ => .ifCondition) fun b s' run => ?_
    cases b with
    | true => exact (areAssignedIn thenBranch s').mono fun _ _ => .ifBranch run
    | false => exact .of_writes_eq_nil rfl
  | .ifElse keyword condition thenBranch elseBranch, s => by
    rw [Stmt.trace]
    refine condition.does_holds.areAssignedIn
      ((condition.areAssignedIn s).mono fun _ _ => .elseCondition) fun b s' run => ?_
    cases b with
    | true => exact (areAssignedIn thenBranch s').mono fun _ _ => .thenBranch run
    | false => exact (areAssignedIn elseBranch s').mono fun _ _ => .elseBranch run

theorem Stmt.areAssignedIn_all : ∀ (body : List Stmt) (s : Session),
    Action.AreAssignedIn (traceAll body s) s (EvaluatesAll body s)
  | [], s => by
    rw [Stmt.traceAll]
    exact .of_writes_eq_nil rfl
  | stmt :: rest, s => by
    rw [Stmt.traceAll]
    refine stmt.does_exec.areAssignedIn ((areAssignedIn stmt s).mono fun _ _ => .first)
      fun outcome s' run => ?_
    cases outcome with
    | completed => exact (areAssignedIn_all rest s').mono fun _ _ => .later run
    | halted => exact .of_writes_eq_nil rfl

end

namespace Program

/-- A program does nothing to the store but what it writes, however it ends. -/
theorem store_after_run (p : Program) (s : Session) :
    (p.run.after s).store = s.store.setAll (p.writes s) := by
  rw [run, Effect.after_thenAlways_flush]
  exact (Stmt.does_execAll p.body).store_after s

/-- Whenever an expression is evaluated, its writes are the next, and the store holds all before
    them. -/
theorem exists_writes {p : Program} {e : Expr} {s u : Session} (h : p.Evaluates s e u) :
    ∃ before after, p.writes s = before ++ (e.writes u ++ after) ∧
      u.store = s.store.setAll before := by
  obtain ⟨before, after, split, rfl⟩ := Evaluates.passes h
  refine ⟨Action.writes before, Action.writes after, ?_, Action.store_afterAll before s⟩
  rw [writes, split, Action.writes_append, Action.writes_append]
  rfl

/-- What is written is the value of an assignment that is evaluated, and it is written when the
    right side has come to this value, behind all other writes up to then. -/
theorem exists_of_writes {p : Program} {s : Session} {before after : List (String × Float)}
    {name : String} {x : Float} (h : p.writes s = before ++ (name, x) :: after) :
    ∃ token value u u', token.lexeme = name ∧ p.Evaluates s (.assign token value) u ∧
      value.value u = .ok x u' ∧ u'.store = s.store.setAll before := by
  obtain ⟨front, behind, split, first, later⟩ := List.filterMap_eq_append_iff.mp h
  obtain ⟨quiet, action, rest, rfl, silent, written, _⟩ := List.filterMap_eq_cons_iff.mp later
  cases action with
  | assign token y =>
    cases written
    rw [← List.append_assoc] at split
    obtain ⟨value, u, evaluated, run⟩ :=
      Stmt.areAssignedIn_all p.body s (front ++ quiet) token x rest split
    refine ⟨token, value, u, _, rfl, evaluated, run, ?_⟩
    have nothing : Action.writes quiet = [] := List.filterMap_eq_nil_iff.mpr silent
    have all : Action.writes (front ++ quiet) = before := by
      rw [Action.writes_append, nothing, List.append_nil]
      exact first
    rw [Action.store_afterAll, all]
  | prompt keyword text => cases written
  | read keyword => cases written
  | print keyword y => cases written

end Program

end NumScript
