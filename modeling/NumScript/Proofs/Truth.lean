/-
  What counts as true is the same for `if`, `!` and `==`.

  A condition holds if its value is exactly one.  `!` makes one of every other value and `==` makes
  one of equal values, so a choice can be written in several ways: with the branches exchanged and
  `!` before its condition, with two `!`s, or with `== 1` behind it (`Stmt.Chooses`).  Every value
  is covered, those that are no numbers and the zeros of both signs included, because all that is
  ever asked of it is whether it is equal to one (`truth_beq_one`).  The condition itself is
  evaluated once in each of them, so what it does and how it fails stays as it is: `!` and `==` ask
  for its value with the token of the condition, as `if` does.

  Ways to write the same choice may be exchanged anywhere.  `Stmt.Interchangeable` is the smallest
  relation that is kept by all constructs of statements and relates them; in a statement that is
  related to another any number of choices, also inside of each other, are written in another way.
  The programs are the same effect (`Program.run_of_interchangeable`).
-/
import NumScript.Proofs.Actions

namespace NumScript

open Effect

/-! ## Conditions -/

/-- A truth value is true exactly if it is equal to one. -/
theorem truth_beq_one (b : Bool) : (truth b == 1.0) = b := by
  cases b <;> decide

namespace Expr

variable {op : Token}

/-- A `!` asks whether its operand differs from one. -/
theorem value_unary (h : op.kind = .bang) (operand : Expr) :
    (Expr.unary op operand).value = (do return truth ((← operand.value) != 1.0)) := by
  rw [Expr.value, Expr.eval, operand.bind_value, bind_assoc]
  refine bind_congr fun x => ?_
  rw [Token.applyUnary, h]
  rfl

/-- A comparison with a literal asks whether the operand is equal to it. -/
theorem value_comparison (h : op.kind = .equalEqual) (left : Expr) (one : Token) (y : Float) :
    (Expr.binary left op (.literal one y)).value = (do return truth ((← left.value) == y)) := by
  rw [Expr.value, Expr.eval, left.bind_value, bind_assoc]
  refine bind_congr fun x => ?_
  show (do
    let z ← (do
      let z ← (MonadExcept.ofExcept (op.applyBinary x y) : Effect Float)
      return some z)
    Effect.require (.binary left op (.literal one y)) z) = _
  rw [Token.applyBinary, h]
  rfl

/-- A negated condition holds if the condition does not. -/
theorem holds_unary (h : op.kind = .bang) (operand : Expr) :
    (Expr.unary op operand).holds = (do return !(← operand.holds)) := by
  rw [Expr.holds, value_unary h, Expr.holds, bind_assoc, bind_assoc]
  refine bind_congr fun x => ?_
  rw [pure_bind, pure_bind, truth_beq_one]
  rfl

/-- A comparison with one holds if what is compared does, as a condition. -/
theorem holds_comparison (h : op.kind = .equalEqual) (left : Expr) (one : Token) :
    (Expr.binary left op (.literal one 1.0)).holds = left.holds := by
  rw [Expr.holds, value_comparison h, Expr.holds, bind_assoc]
  refine bind_congr fun x => ?_
  rw [pure_bind, truth_beq_one]

end Expr

/-! ## Ways to write a choice -/

namespace Stmt

/-- The statement chooses between two branches by this condition. -/
inductive Chooses (condition : Expr) (first second : Stmt) : Stmt → Prop where
  /-- `if condition first else second` -/
  | plain (keyword : Token) :
    Chooses condition first second (.ifElse keyword condition first second)
  /-- `if !condition second else first` -/
  | negated (keyword : Token) {op : Token} (kind : op.kind = .bang) :
    Chooses condition first second (.ifElse keyword (.unary op condition) second first)
  /-- `if !!condition first else second` -/
  | twiceNegated (keyword : Token) {op op' : Token} (kind : op.kind = .bang)
    (kind' : op'.kind = .bang) :
    Chooses condition first second
      (.ifElse keyword (.unary op (.unary op' condition)) first second)
  /-- `if condition == 1 first else second` -/
  | compared (keyword : Token) {op : Token} (kind : op.kind = .equalEqual) (one : Token) :
    Chooses condition first second
      (.ifElse keyword (.binary condition op (.literal one 1.0)) first second)

/-- The statement is executed or not by this condition. -/
inductive Depends (condition : Expr) (only : Stmt) : Stmt → Prop where
  /-- `if condition only` -/
  | plain (keyword : Token) : Depends condition only (.ifThen keyword condition only)
  /-- `if !condition {} else only` -/
  | negated (keyword : Token) {op : Token} (kind : op.kind = .bang) (brace : Token) :
    Depends condition only (.ifElse keyword (.unary op condition) (.block brace []) only)

variable {condition : Expr} {first second only s s' : Stmt}

/-- A choice that is written with another condition is the same if that holds and fails alike. -/
theorem exec_ifElse_of_holds {condition' : Expr} {f : Bool → Bool} (keyword : Token)
    (h : condition'.holds = (do return f (← condition.holds))) :
    (Stmt.ifElse keyword condition' first second).exec =
      (do if f (← condition.holds) then first.exec else second.exec) := by
  rw [exec, h, bind_assoc]
  rfl

/-- However a choice is written, its condition is evaluated and then one of the branches. -/
theorem Chooses.exec (h : Chooses condition first second s) :
    s.exec = (do if ← condition.holds then first.exec else second.exec) := by
  cases h with
  | plain keyword => rw [Stmt.exec]
  | negated keyword kind =>
    rw [exec_ifElse_of_holds keyword (Expr.holds_unary kind condition)]
    refine bind_congr fun b => ?_
    cases b <;> rfl
  | twiceNegated keyword kind kind' =>
    rw [exec_ifElse_of_holds keyword (Expr.holds_unary kind _), Expr.holds_unary kind', bind_assoc]
    refine bind_congr fun b => ?_
    cases b <;> rfl
  | compared keyword kind one => rw [Stmt.exec, Expr.holds_comparison kind]

/-- Whichever way it is written, the statement is executed if the condition holds, and else nothing
    is. -/
theorem Depends.exec (h : Depends condition only s) :
    s.exec = (do if ← condition.holds then only.exec else return .completed) := by
  cases h with
  | plain keyword => rw [Stmt.exec]
  | negated keyword kind brace =>
    rw [exec_ifElse_of_holds keyword (Expr.holds_unary kind condition)]
    refine bind_congr fun b => ?_
    cases b with
    | true => rfl
    | false =>
      -- a block with nothing in it is completed, as is an `if` that does not hold
      show (Stmt.block brace []).exec = _
      rw [Stmt.exec, execAll]
      rfl

/-! ## Anywhere in a program -/

mutual

/-- Some choices are written in another way, and otherwise the statements are the same. -/
inductive Interchangeable : Stmt → Stmt → Prop where
  | choice {condition : Expr} {first second s s' : Stmt} (one : Chooses condition first second s)
    (other : Chooses condition first second s') : Interchangeable s s'
  | dependence {condition : Expr} {only s s' : Stmt} (one : Depends condition only s)
    (other : Depends condition only s') : Interchangeable s s'
  | refl (s : Stmt) : Interchangeable s s
  | symm {s s' : Stmt} (h : Interchangeable s s') : Interchangeable s' s
  | trans {s s' s'' : Stmt} (h : Interchangeable s s') (h' : Interchangeable s' s'') :
    Interchangeable s s''
  | block (brace : Token) {body body' : List Stmt} (inner : InterchangeableAll body body') :
    Interchangeable (.block brace body) (.block brace body')
  | ifThen (keyword : Token) (condition : Expr) {s s' : Stmt} (inner : Interchangeable s s') :
    Interchangeable (.ifThen keyword condition s) (.ifThen keyword condition s')
  | ifElse (keyword : Token) (condition : Expr) {s s' t t' : Stmt} (first : Interchangeable s s')
    (second : Interchangeable t t') :
    Interchangeable (.ifElse keyword condition s t) (.ifElse keyword condition s' t')

/-- The same of statements in a list, one by one. -/
inductive InterchangeableAll : List Stmt → List Stmt → Prop where
  | nil : InterchangeableAll [] []
  | cons {s s' : Stmt} {rest rest' : List Stmt} (first : Interchangeable s s')
    (others : InterchangeableAll rest rest') : InterchangeableAll (s :: rest) (s' :: rest')

end

mutual

/-- Statements that may be exchanged are executed alike. -/
theorem Interchangeable.exec : ∀ {s s' : Stmt}, Interchangeable s s' → s'.exec = s.exec
  | _, _, .choice one other => other.exec.trans one.exec.symm
  | _, _, .dependence one other => other.exec.trans one.exec.symm
  | _, _, .refl _ => rfl
  | _, _, .symm h => h.exec.symm
  | _, _, .trans h h' => h'.exec.trans h.exec
  | _, _, .block _ inner => by rw [Stmt.exec, Stmt.exec, inner.execAll]
  | _, _, .ifThen _ _ inner => by rw [Stmt.exec, Stmt.exec, inner.exec]
  | _, _, .ifElse _ _ first second => by rw [Stmt.exec, Stmt.exec, first.exec, second.exec]

theorem InterchangeableAll.execAll : ∀ {body body' : List Stmt}, InterchangeableAll body body' →
    Stmt.execAll body' = Stmt.execAll body
  | _, _, .nil => rfl
  | _, _, .cons first others => by
    rw [Stmt.execAll, Stmt.execAll, first.exec, others.execAll]

end

end Stmt

/-- Some choices in the program are written in another way. -/
def Program.Interchangeable (p p' : Program) : Prop :=
  Stmt.InterchangeableAll p.body p'.body

namespace Program

/-- It does not matter how the choices of a program are written: whichever of them, anywhere in it,
    are written in another way, it is the same effect. -/
theorem run_of_interchangeable {p p' : Program} (h : p.Interchangeable p') : p'.run = p.run := by
  show (Stmt.execAll p'.body).thenAlways flush = _
  rw [Stmt.InterchangeableAll.execAll h]
  rfl

/-- In `if y print x if x { if y print x else halt } else print x` every choice is written in
    another way: `if !y {} else print x if !x print x else { if y == 1 print x else halt }`.  Both
    halt where `x` is one and `y` is no number. -/
theorem run_of_interchangeable_nested :
    let x : Expr := .var ⟨.identifier, "x", 1⟩
    let y : Expr := .var ⟨.identifier, "y", 1⟩
    let printing : Stmt := .expression (.print ⟨.printWord, "print", 1⟩ x)
    let halting : Stmt := .halt ⟨.haltWord, "halt", 1⟩
    let choice : Token := ⟨.ifWord, "if", 1⟩
    let brace : Token := ⟨.leftBrace, "\x7b", 1⟩
    let not : Expr → Expr := .unary ⟨.bang, "!", 1⟩
    let isOne (e : Expr) : Expr :=
      .binary e ⟨.equalEqual, "==", 1⟩ (.literal ⟨.number 1.0, "1", 1⟩ 1.0)
    let p : Program :=
      ⟨[.ifThen choice y printing,
        .ifElse choice x (.block brace [.ifElse choice y printing halting]) printing]⟩
    let p' : Program :=
      ⟨[.ifElse choice (not y) (.block brace []) printing,
        .ifElse choice (not x) printing
          (.block brace [.ifElse choice (isOne y) printing halting])]⟩
    let s : Session :=
      { store := (Store.empty.set "x" 1.0).set "y" (0.0 / 0.0), reader := ⟨[], none⟩ }
    p.Interchangeable p' ∧ p.run s = .ok .halted s ∧ p'.run s = .ok .halted s := by
  intro x y printing halting choice brace not isOne p p' s
  have inner : Stmt.Interchangeable (.ifElse choice y printing halting)
      (.ifElse choice (isOne y) printing halting) :=
    .choice (.plain choice) (.compared choice rfl _)
  have related : p.Interchangeable p' := by
    refine .cons (.dependence (.plain choice) (.negated choice rfl brace)) (.cons ?_ .nil)
    refine .trans (.ifElse choice x (.block brace (.cons inner .nil)) (.refl printing)) ?_
    exact .choice (.plain choice) (.negated choice rfl)
  have ran : p.run s = .ok .halted s := rfl
  exact ⟨related, ran, (congrFun (run_of_interchangeable related) s).trans ran⟩

end Program

end NumScript
