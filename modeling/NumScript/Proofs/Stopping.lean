/-
  What stands behind the point at which a run stops does not matter.

  A run that does not get to the end of its program stops at a `halt`, or at an expression that has
  no value though its parts have theirs.  `Program.stop?` finds this point by following the run, and
  `Stop.Ends` says that the run ends there: with the outcome of the `halt` or with the error of the
  expression, in the session that this one step leaves behind (`Program.ends_run`).

  What has not been begun by then may be replaced by anything.  `Stmt.SameUpTo` lists what that is,
  one constructor for each: the right operand if the stop is in the left one, both branches if it is
  in the condition, the branch that is not taken, and the statements behind the one that it is in.
  Only what is kept is ever evaluated, so the changed program does step by step the same, from the
  same session to the same end (`Stmt.SameUpTo.exec`).

  An error passes through `>>=` by itself while a `halt` is a value that lists of statements look
  at; both are settled at one place, where a statement with a stop in it is shown not to have been
  completed (`Stmt.exec_ne_completed`).
-/
import NumScript.Proofs.Faults

namespace NumScript

open Effect

/-! ## Where a run stops -/

/-- A point at which a run stops before the end of the program. -/
inductive Stop where
  /-- A `halt` that is executed in this session. -/
  | halt (keyword : Token) (s : Session)
  /-- An expression that is evaluated in this session and has no value. -/
  | failure (e : Expr) (s : Session)

namespace Effect

variable {α β γ : Type}

/-- What is found inside a step if it fails, and else what is found behind it. -/
def locate (a : Effect α) (inside : γ) (behind : α → Session → γ) (s : Session) : γ :=
  match a s with
  | .ok x u => behind x u
  | .error _ _ => inside

theorem locate_of_ok {a : Effect α} {inside : γ} {behind : α → Session → γ} {s u : Session}
    {x : α} (h : a s = .ok x u) : a.locate inside behind s = behind x u := by
  rw [locate, h]

theorem locate_of_error {a : Effect α} {inside : γ} {behind : α → Session → γ} {s u : Session}
    {err : Error} (h : a s = .error err u) : a.locate inside behind s = inside := by
  rw [locate, h]

/-- Two steps do the same as two others if the first ones do, and the second ones behind them. -/
theorem bind_eq_bind {a a' : Effect α} {f f' : α → Effect β} {s : Session} (first : a' s = a s)
    (second : ∀ x u, a s = .ok x u → f' x u = f x u) : (a' >>= f') s = (a >>= f) s := by
  cases run : a s with
  | ok x u => rw [bind_of_ok run, bind_of_ok (first.trans run), second x u run]
  | error err u => rw [bind_of_error run, bind_of_error (first.trans run)]

/-- Where it is known what the first step gives, the second ones need to do the same only there. -/
theorem bind_eq_bind_of_ok {a a' : Effect α} {f f' : α → Effect β} {s u : Session} {x : α}
    (first : a' s = a s) (run : a s = .ok x u) (second : f' x u = f x u) :
    (a' >>= f') s = (a >>= f) s := by
  rw [bind_of_ok run, bind_of_ok (first.trans run), second]

end Effect

/-- The innermost expression at which evaluating this one fails, if it does. -/
def Expr.culprit : Expr → Session → Stop
  | .assign name value, s =>
    value.value.locate (value.culprit s) (fun _ _ => .failure (.assign name value) s) s
  | .binary left op right, s =>
    left.value.locate (left.culprit s) (fun _ u =>
      right.value.locate (right.culprit u) (fun _ _ => .failure (.binary left op right) s) u) s
  | .print keyword value, s =>
    value.value.locate (value.culprit s) (fun _ _ => .failure (.print keyword value) s) s
  | .unary op operand, s =>
    operand.value.locate (operand.culprit s) (fun _ _ => .failure (.unary op operand) s) s
  | .input keyword, s => .failure (.input keyword) s
  | .literal token value, s => .failure (.literal token value) s
  | .var name, s => .failure (.var name) s

/-- Where the run stops in an expression whose value is needed, if it does. -/
def Expr.stop? (e : Expr) (s : Session) : Option Stop :=
  e.value.locate (some (e.culprit s)) (fun _ _ => none) s

mutual

/-- Where the run stops in a statement, if it does. -/
def Stmt.stop? : Stmt → Session → Option Stop
  | .block _ body, s => stopAll? body s
  | .expression e, s => e.eval.locate (some (e.culprit s)) (fun _ _ => none) s
  | .halt keyword, s => some (.halt keyword s)
  | .ifThen _ condition thenBranch, s =>
    condition.holds.locate (some (condition.culprit s))
      (fun b u => if b then thenBranch.stop? u else none) s
  | .ifElse _ condition thenBranch elseBranch, s =>
    condition.holds.locate (some (condition.culprit s))
      (fun b u => if b then thenBranch.stop? u else elseBranch.stop? u) s

/-- Where the run stops in some statements, if it does: in the first that is not completed. -/
def Stmt.stopAll? : List Stmt → Session → Option Stop
  | [], _ => none
  | first :: rest, s =>
    first.exec.locate (first.stop? s)
      (fun
        | .completed, u => stopAll? rest u
        | .halted, _ => first.stop? s) s

end

/-- Where the run of a program stops, if it does before the end. -/
def Program.stop? (p : Program) : Session → Option Stop :=
  Stmt.stopAll? p.body

/-! ## The run ends there -/

/-- The run is completed without a stop, or ends at the stop. -/
inductive Stop.Ends (evaluated : Expr → Session → Prop) :
    Option Stop → EStateM.Result Error Session Outcome → Prop where
  | completed (u : Session) : Ends evaluated none (.ok .completed u)
  | halted (keyword : Token) (u : Session) :
    Ends evaluated (some (.halt keyword u)) (.ok .halted u)
  /-- The expression is evaluated, no part of it fails, and it does. -/
  | failed {e : Expr} {u v : Session} {err : Error} (reached : evaluated e u)
    (itself : e.culprit u = .failure e u) (failed : e.value u = .error err v) :
    Ends evaluated (some (.failure e u)) (.error err v)

namespace Stop.Ends

variable {evaluated evaluated' : Expr → Session → Prop} {stop : Option Stop} {n : Stop}

/-- More may be evaluated. -/
theorem mono {r : EStateM.Result Error Session Outcome} (h : Ends evaluated stop r)
    (more : ∀ e u, evaluated e u → evaluated' e u) : Ends evaluated' stop r := by
  cases h with
  | completed u => exact .completed u
  | halted keyword u => exact .halted keyword u
  | failed reached itself failed => exact .failed (more _ _ reached) itself failed

/-- Two steps end in the first, if that fails, or else in the second. -/
theorem bind {α : Type} {a : Effect α} {f : α → Effect Outcome} {inside : Option Stop}
    {behind : α → Session → Option Stop} {s : Session}
    (first : ∀ {err v}, a s = .error err v → Ends evaluated inside (.error err v))
    (second : ∀ x u, a s = .ok x u → Ends evaluated (behind x u) (f x u)) :
    Ends evaluated (a.locate inside behind s) ((a >>= f) s) := by
  cases run : a s with
  | ok x u =>
    rw [locate_of_ok run, bind_of_ok run]
    exact second x u run
  | error err v =>
    rw [locate_of_error run, bind_of_error run]
    exact first run

/-- An expression fails in one of its parts, which passes its error on, or behind it. -/
theorem of_part {e part : Expr} {s u v : Session} {err : Error} {behind : Float → Session → Stop}
    (failed : e.value s = .error err v)
    (passes : ∀ {err' v'}, part.value u = .error err' v' → e.value s = .error err' v')
    (more : ∀ {e' u'}, part.Evaluates u e' u' → e.Evaluates s e' u')
    (inside : ∀ {err' v'}, part.value u = .error err' v' →
      Ends (part.Evaluates u) (some (part.culprit u)) (.error err' v'))
    (later : ∀ x u', part.value u = .ok x u' →
      Ends (e.Evaluates s) (some (behind x u')) (.error err v)) :
    Ends (e.Evaluates s) (some (part.value.locate (part.culprit u) behind u)) (.error err v) := by
  cases run : part.value u with
  | ok x u' =>
    rw [locate_of_ok run]
    exact later x u' run
  | error err' v' =>
    rw [locate_of_error run]
    have same : e.value s = .error err' v' := passes run
    rw [failed] at same
    cases same
    exact (inside run).mono fun _ _ => more

end Stop.Ends

namespace Expr

/-- What a part that is evaluated first fails with, the expression fails with. -/
theorem value_of_part {e part : Expr} {f : Float → Effect (Option Float)} {s v : Session}
    {err : Error} (eval : e.eval = part.value >>= f) (h : part.value s = .error err v) :
    e.value s = .error err v := by
  rw [Expr.value, eval]
  exact bind_of_error (bind_of_error h)

/-- An expression without a value fails at the culprit in it. -/
theorem ends_culprit : ∀ {e : Expr} {s v : Session} {err : Error}, e.value s = .error err v →
    Stop.Ends (e.Evaluates s) (some (e.culprit s)) (.error err v)
  | .assign name value, s, v, err, h => by
    have eval : (Expr.assign name value).eval = _ := value.bind_value _
    rw [culprit]
    refine .of_part h (value_of_part eval) .assign ends_culprit fun x u first => ?_
    exact .failed (.self _ s) (by rw [culprit, locate_of_ok first]) h
  | .binary left op right, s, v, err, h => by
    have eval : (Expr.binary left op right).eval = _ := left.bind_value _
    rw [culprit]
    refine .of_part h (value_of_part eval) .left ends_culprit fun x u first => ?_
    have passes {err' v'} (failed : right.value u = .error err' v') :
        (Expr.binary left op right).value s = .error err' v' := by
      rw [Expr.value, eval, bind_assoc, bind_of_ok first, right.bind_value]
      exact bind_of_error (bind_of_error failed)
    refine .of_part h passes (.right first) ends_culprit fun y w second => ?_
    exact .failed (.self _ s) (by rw [culprit, locate_of_ok first, locate_of_ok second]) h
  | .print keyword value, s, v, err, h => by
    have eval : (Expr.print keyword value).eval = _ := value.bind_value _
    rw [culprit]
    refine .of_part h (value_of_part eval) .print ends_culprit fun x u first => ?_
    exact .failed (.self _ s) (by rw [culprit, locate_of_ok first]) h
  | .unary op operand, s, v, err, h => by
    have eval : (Expr.unary op operand).eval = _ := operand.bind_value _
    rw [culprit]
    refine .of_part h (value_of_part eval) .unary ends_culprit fun x u first => ?_
    exact .failed (.self _ s) (by rw [culprit, locate_of_ok first]) h
  | .input _, s, _, _, h => .failed (.self _ s) rfl h
  | .literal _ _, s, _, _, h => .failed (.self _ s) rfl h
  | .var _, s, _, _, h => .failed (.self _ s) rfl h

/-- An expression that cannot be evaluated has no value. -/
theorem value_of_eval {e : Expr} {s v : Session} {err : Error} (h : e.eval s = .error err v) :
    e.value s = .error err v :=
  bind_of_error h

theorem value_of_holds {e : Expr} {s v : Session} {err : Error} (h : e.holds s = .error err v) :
    e.value s = .error err v := by
  rcases of_bind_eq_error h with failed | ⟨x, u, _, no⟩
  · exact failed
  · cases no

/-- An expression in which the run stops has no value. -/
theorem value_ne_ok {e : Expr} {s : Session} {n : Stop} (h : e.stop? s = some n) (x : Float)
    (u : Session) : e.value s ≠ .ok x u := by
  intro run
  rw [stop?, locate_of_ok run] at h
  cases h

/-- A condition in which the run stops does not say which branch to take. -/
theorem holds_ne_ok {e : Expr} {s : Session} {n : Stop} (h : e.stop? s = some n) (b : Bool)
    (u : Session) : e.holds s ≠ .ok b u := by
  intro run
  obtain ⟨x, v, valued, _⟩ := of_bind_eq_ok run
  exact value_ne_ok h x v valued

end Expr

namespace Stmt

theorem exec_expression (e : Expr) :
    (Stmt.expression e).exec = (do let _ ← e.eval; return .completed) := by
  rw [exec]
  show (do let _ ← (do let _ ← e.eval; return ()); return Outcome.completed) = _
  rw [bind_assoc]
  rfl

mutual

/-- The end of a statement is at its stop, if it has one. -/
theorem ends_exec : ∀ (stmt : Stmt) (s : Session),
    Stop.Ends (stmt.Evaluates s) (stmt.stop? s) (stmt.exec s)
  | .block _ body, s => by
    rw [stop?, exec]
    exact (ends_execAll body s).mono fun _ _ => .block
  | .expression e, s => by
    rw [stop?, exec_expression]
    refine .bind (fun failed => ?_) fun _ u _ => .completed u
    exact (Expr.ends_culprit (Expr.value_of_eval failed)).mono fun _ _ => .expression
  | .halt keyword, s => by
    rw [stop?, exec]
    exact .halted keyword s
  | .ifThen _ condition thenBranch, s => by
    rw [stop?, exec]
    refine .bind (fun failed => ?_) fun b u held => ?_
    · exact (Expr.ends_culprit (Expr.value_of_holds failed)).mono fun _ _ => .ifCondition
    · cases b with
      | true => exact (ends_exec thenBranch u).mono fun _ _ => .ifBranch held
      | false => exact .completed u
  | .ifElse _ condition thenBranch elseBranch, s => by
    rw [stop?, exec]
    refine .bind (fun failed => ?_) fun b u held => ?_
    · exact (Expr.ends_culprit (Expr.value_of_holds failed)).mono fun _ _ => .elseCondition
    · cases b with
      | true => exact (ends_exec thenBranch u).mono fun _ _ => .thenBranch held
      | false => exact (ends_exec elseBranch u).mono fun _ _ => .elseBranch held

/-- The same of statements that are executed in order. -/
theorem ends_execAll : ∀ (body : List Stmt) (s : Session),
    Stop.Ends (Stmt.EvaluatesAll body s) (stopAll? body s) (execAll body s)
  | [], s => by
    rw [stopAll?, execAll]
    exact .completed s
  | first :: rest, s => by
    have here : Stop.Ends (EvaluatesAll (first :: rest) s) (first.stop? s) (first.exec s) :=
      (ends_exec first s).mono fun _ _ => .first
    rw [stopAll?, execAll]
    refine .bind (fun failed => failed ▸ here) fun outcome u ran => ?_
    cases outcome with
    | completed => exact (ends_execAll rest u).mono fun _ _ => .later ran
    | halted =>
      rw [ran] at here
      exact here

end

/-- A statement in which the run stops is not completed. -/
theorem exec_ne_completed {stmt : Stmt} {s : Session} {n : Stop} (h : stmt.stop? s = some n)
    (u : Session) : stmt.exec s ≠ .ok .completed u := by
  intro ran
  have ends := stmt.ends_exec s
  rw [h, ran] at ends
  cases ends

end Stmt

/-- However a program ends, it does so where it stops, if that is before its end. -/
theorem Program.ends_run (p : Program) {s : Session} (flushes : s.writer.flushes = none) :
    Stop.Ends (p.Evaluates s) (p.stop? s) (p.run s) := by
  rw [p.run_eq_execAll flushes]
  exact Stmt.ends_execAll p.body s

/-- A `halt` stops the run out of any blocks, whatever stands behind it. -/
example (keyword brace : Token) (rest rest' : List Stmt) (s : Session) :
    Program.stop? ⟨.block brace (.block brace [.halt keyword] :: rest) :: rest'⟩ s =
      some (.halt keyword s) := rfl

/-! ## What has not been begun -/

/-- The second expression differs from the first, if that is evaluated in the session, only in
    parts that are not begun when the run stops at `n`. -/
inductive Expr.SameUpTo (n : Stop) : Session → Expr → Expr → Prop where
  | self (e : Expr) (s : Session) : SameUpTo n s e e
  | assign {name : Token} {value value' : Expr} {s : Session} (inner : SameUpTo n s value value') :
    SameUpTo n s (.assign name value) (.assign name value')
  | print {keyword : Token} {value value' : Expr} {s : Session}
    (inner : SameUpTo n s value value') :
    SameUpTo n s (.print keyword value) (.print keyword value')
  | unary {op : Token} {operand operand' : Expr} {s : Session}
    (inner : SameUpTo n s operand operand') : SameUpTo n s (.unary op operand) (.unary op operand')
  /-- The stop is in the left operand: the right one is any. -/
  | left {left left' right right' : Expr} {op : Token} {s : Session}
    (stops : left.stop? s = some n) (inner : SameUpTo n s left left') :
    SameUpTo n s (.binary left op right) (.binary left' op right')
  | right {left left' right right' : Expr} {op : Token} {s u : Session} {x : Float}
    (first : left.value s = .ok x u) (inner : SameUpTo n s left left')
    (second : SameUpTo n u right right') :
    SameUpTo n s (.binary left op right) (.binary left' op right')

/-- A choice, with or without an alternative. -/
def Stmt.choice (keyword : Token) (condition : Expr) (thenBranch : Stmt) : Option Stmt → Stmt
  | none => .ifThen keyword condition thenBranch
  | some elseBranch => .ifElse keyword condition thenBranch elseBranch

mutual

/-- The second statement differs from the first, if that is executed in the session, only in parts
    that are not begun when the run stops at `n`. -/
inductive Stmt.SameUpTo (n : Stop) : Session → Stmt → Stmt → Prop where
  | self (stmt : Stmt) (s : Session) : Stmt.SameUpTo n s stmt stmt
  | block {brace : Token} {body body' : List Stmt} {s : Session}
    (inner : Stmt.SameAllUpTo n s body body') :
    Stmt.SameUpTo n s (.block brace body) (.block brace body')
  | expression {e e' : Expr} {s : Session} (inner : e.SameUpTo n s e') :
    Stmt.SameUpTo n s (.expression e) (.expression e')
  /-- The stop is in the condition: the branches are any. -/
  | condition {keyword : Token} {condition condition' : Expr} {thenBranch thenBranch' : Stmt}
    {elseBranch elseBranch' : Option Stmt} {s : Session} (stops : condition.stop? s = some n)
    (inner : condition.SameUpTo n s condition') :
    Stmt.SameUpTo n s (.choice keyword condition thenBranch elseBranch)
      (.choice keyword condition' thenBranch' elseBranch')
  /-- The condition holds: the alternative is any. -/
  | thenBranch {keyword : Token} {condition condition' : Expr} {thenBranch thenBranch' : Stmt}
    {elseBranch elseBranch' : Option Stmt} {s u : Session} (held : condition.holds s = .ok true u)
    (first : condition.SameUpTo n s condition')
    (second : Stmt.SameUpTo n u thenBranch thenBranch') :
    Stmt.SameUpTo n s (.choice keyword condition thenBranch elseBranch)
      (.choice keyword condition' thenBranch' elseBranch')
  /-- The condition does not hold: the first branch is any. -/
  | elseBranch {keyword : Token} {condition condition' : Expr}
    {thenBranch thenBranch' elseBranch elseBranch' : Stmt} {s u : Session}
    (held : condition.holds s = .ok false u) (first : condition.SameUpTo n s condition')
    (second : Stmt.SameUpTo n u elseBranch elseBranch') :
    Stmt.SameUpTo n s (.ifElse keyword condition thenBranch elseBranch)
      (.ifElse keyword condition' thenBranch' elseBranch')
  /-- The condition does not hold and there is no alternative: the branch is any. -/
  | noBranch {keyword : Token} {condition condition' : Expr} {thenBranch thenBranch' : Stmt}
    {s u : Session} (held : condition.holds s = .ok false u)
    (first : condition.SameUpTo n s condition') :
    Stmt.SameUpTo n s (.ifThen keyword condition thenBranch)
      (.ifThen keyword condition' thenBranch')

/-- The same of statements that are executed in order. -/
inductive Stmt.SameAllUpTo (n : Stop) : Session → List Stmt → List Stmt → Prop where
  | self (body : List Stmt) (s : Session) : Stmt.SameAllUpTo n s body body
  /-- The stop is in the first statement: the others are any, and any number. -/
  | first {first first' : Stmt} {rest rest' : List Stmt} {s : Session}
    (stops : first.stop? s = some n) (inner : Stmt.SameUpTo n s first first') :
    Stmt.SameAllUpTo n s (first :: rest) (first' :: rest')
  | later {first first' : Stmt} {rest rest' : List Stmt} {s u : Session}
    (ran : first.exec s = .ok .completed u) (inner : Stmt.SameUpTo n s first first')
    (others : Stmt.SameAllUpTo n u rest rest') :
    Stmt.SameAllUpTo n s (first :: rest) (first' :: rest')

end

/-- The second program differs from the first, if that is run in the session, only in parts that are
    not begun when the run stops at `n`. -/
def Program.SameUpTo (n : Stop) (s : Session) (p p' : Program) : Prop :=
  Stmt.SameAllUpTo n s p.body p'.body

/-! ## It does not matter -/

namespace Expr

variable {n : Stop} {s : Session} {e e' : Expr}

/-- What is not begun does not change the token on which errors are placed. -/
theorem SameUpTo.token (h : e.SameUpTo n s e') : e'.token = e.token := by
  cases h <;> rfl

/-- If an expression is evaluated to the same end, its value is the same where it is needed; the
    error about a value that is missing is placed on the token. -/
theorem value_eq_value (eval : e'.eval s = e.eval s) (token : e'.token = e.token) :
    e'.value s = e.value s := by
  refine bind_eq_bind eval fun x u _ => ?_
  cases x with
  | some x => rfl
  | none => rw [require, require, token]

/-- What is not begun does not change how an expression is evaluated. -/
theorem SameUpTo.eval (h : e.SameUpTo n s e') : e'.eval s = e.eval s := by
  induction h with
  | self => rfl
  | @assign _ value value' _ inner ih =>
    rw [Expr.eval, Expr.eval, value.bind_value, value'.bind_value]
    exact bind_eq_bind (value_eq_value ih inner.token) fun _ _ _ => rfl
  | @print _ value value' _ inner ih =>
    rw [Expr.eval, Expr.eval, value.bind_value, value'.bind_value]
    exact bind_eq_bind (value_eq_value ih inner.token) fun _ _ _ => rfl
  | @unary _ operand operand' _ inner ih =>
    rw [Expr.eval, Expr.eval, operand.bind_value, operand'.bind_value]
    exact bind_eq_bind (value_eq_value ih inner.token) fun _ _ _ => rfl
  | @left left left' right right' _ _ stops inner ih =>
    rw [Expr.eval, Expr.eval, left.bind_value, left'.bind_value]
    refine bind_eq_bind (value_eq_value ih inner.token) fun x u first => ?_
    exact absurd first (value_ne_ok stops x u)
  | @right left left' right right' _ _ _ _ first inner second ih ih' =>
    rw [Expr.eval, Expr.eval, left.bind_value, left'.bind_value]
    refine bind_eq_bind_of_ok (value_eq_value ih inner.token) first ?_
    rw [right.bind_value, right'.bind_value]
    exact bind_eq_bind (value_eq_value ih' second.token) fun _ _ _ => rfl

theorem SameUpTo.holds (h : e.SameUpTo n s e') : e'.holds s = e.holds s :=
  bind_eq_bind (value_eq_value h.eval h.token) fun _ _ _ => rfl

end Expr

namespace Stmt

theorem exec_choice (keyword : Token) (condition : Expr) (thenBranch : Stmt)
    (elseBranch : Option Stmt) : (choice keyword condition thenBranch elseBranch).exec = (do
      if ← condition.holds then thenBranch.exec
      else elseBranch.elim (return .completed) exec) := by
  cases elseBranch <;> rw [choice, exec] <;> rfl

variable {n : Stop}

mutual

/-- The changed statement does the same. -/
theorem SameUpTo.exec : ∀ {s : Session} {stmt stmt' : Stmt},
    stmt.SameUpTo n s stmt' → stmt'.exec s = stmt.exec s
  | _, _, _, .self _ _ => rfl
  | _, _, _, .block inner => by
    rw [Stmt.exec, Stmt.exec]
    exact inner.execAll
  | _, _, _, .expression inner => by
    rw [exec_expression, exec_expression]
    exact bind_eq_bind inner.eval fun _ _ _ => rfl
  | _, _, _, .condition stops inner => by
    rw [exec_choice, exec_choice]
    refine bind_eq_bind inner.holds fun b u held => ?_
    exact absurd held (Expr.holds_ne_ok stops b u)
  | _, _, _, .thenBranch held first second => by
    rw [exec_choice, exec_choice]
    exact bind_eq_bind_of_ok first.holds held second.exec
  | _, _, _, .elseBranch held first second => by
    rw [Stmt.exec, Stmt.exec]
    exact bind_eq_bind_of_ok first.holds held second.exec
  | _, _, _, .noBranch held first => by
    rw [Stmt.exec, Stmt.exec]
    exact bind_eq_bind_of_ok first.holds held rfl

/-- What is not begun does not change how statements are executed. -/
theorem SameAllUpTo.execAll : ∀ {s : Session} {body body' : List Stmt},
    SameAllUpTo n s body body' → Stmt.execAll body' s = Stmt.execAll body s
  | _, _, _, .self _ _ => rfl
  | _, _, _, .first stops inner => by
    rw [Stmt.execAll, Stmt.execAll]
    refine bind_eq_bind inner.exec fun outcome u ran => ?_
    cases outcome with
    | completed => exact absurd ran (exec_ne_completed stops u)
    | halted => rfl
  | _, _, _, .later ran inner others => by
    rw [Stmt.execAll, Stmt.execAll]
    exact bind_eq_bind_of_ok inner.exec ran others.execAll

end

end Stmt

namespace Program

/-- A run that does not complete its program stops at a `halt` or at an expression, and nothing that
    is not begun by then matters: with anything else in these places, the program comes to the same
    end, be that `halt` or an error, and leaves the same variables, output and input. -/
theorem unbegun_irrelevant (p : Program) {s : Session} (flushes : s.writer.flushes = none)
    (early : ∀ u, p.run s ≠ .ok .completed u) :
    ∃ n, p.stop? s = some n ∧ Stop.Ends (p.Evaluates s) (some n) (p.run s) ∧
      ∀ p', p.SameUpTo n s p' → p'.run s = p.run s := by
  have ends := p.ends_run flushes
  cases stop : p.stop? s with
  | none =>
    rw [stop] at ends
    cases ran : p.run s with
    | ok outcome u =>
      rw [ran] at ends
      cases ends
      exact absurd ran (early u)
    | error err u =>
      rw [ran] at ends
      cases ends
  | some n =>
    rw [stop] at ends
    refine ⟨n, rfl, ends, fun p' same => ?_⟩
    rw [p.run_eq_execAll flushes, p'.run_eq_execAll flushes]
    exact Stmt.SameAllUpTo.execAll same

/-- The program `if 1 { if x + input print 1 print 1 } else print 1 print 1` stops at `x`, and so
    does `if 1 { if x + 1 halt else {} }`. -/
theorem unbegun_irrelevant_of_undefined :
    let x : Expr := .var ⟨.identifier, "x", 1⟩
    let one : Expr := .literal ⟨.number 1.0, "1", 1⟩ 1.0
    let printing : Stmt := .expression (.print ⟨.printWord, "print", 1⟩ one)
    let choose := Stmt.choice ⟨.ifWord, "if", 1⟩
    let block := Stmt.block ⟨.leftBrace, "\x7b", 1⟩
    let p : Program :=
      ⟨[choose one (block [choose (.binary x ⟨.plus, "+", 1⟩ (.input ⟨.inputWord, "input", 1⟩))
        printing none, printing]) (some printing), printing]⟩
    let p' : Program :=
      ⟨[choose one (block [choose (.binary x ⟨.plus, "+", 1⟩ one)
        (.halt ⟨.haltWord, "halt", 1⟩) (some (block []))]) none]⟩
    let s : Session := { reader := ⟨[], none⟩ }
    p.run s = .error (.undefinedName ⟨.identifier, "x", 1⟩) s ∧ p'.run s = p.run s := by
  intro x one printing choose block p p' s
  have ran : p.run s = .error (.undefinedName ⟨.identifier, "x", 1⟩) s := rfl
  have early (u : Session) : p.run s ≠ .ok .completed u := by
    rw [ran]
    nofun
  obtain ⟨n, stop, _, irrelevant⟩ := unbegun_irrelevant p rfl early
  have here : p.stop? s = some (.failure x s) := rfl
  rw [here] at stop
  cases stop
  have same : p.SameUpTo (.failure x s) s p' := by
    refine .first rfl (.thenBranch rfl (.self one s) (.block (.first rfl ?_)))
    exact .condition rfl (.left rfl (.self x s))
  exact ⟨ran, irrelevant p' same⟩

end Program

end NumScript
