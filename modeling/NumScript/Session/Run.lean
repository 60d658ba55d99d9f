/-
  Running programs.

  Expressions are evaluated from left to right, and statements are executed in order.  Whoever needs
  the value of an expression asks for it with `Effect.require`, which fails on a `print`; only a
  statement that consists of an expression does not ask.  A condition holds if its value is exactly
  one, and `!` and `==` give one or zero.

  `halt` ends the program from inside any number of blocks and branches, and so does an error; what
  has been done up to there stays done.
-/
import NumScript.Cursor
import NumScript.Session.Basic
import NumScript.Text.Blank

namespace NumScript

/-- How a program ends that does not fail. -/
inductive Outcome where
  /-- All statements have been executed. -/
  | completed
  /-- A `halt` was executed. -/
  | halted
deriving DecidableEq

/-! ## Values -/

/-- A truth value as a number. -/
def truth (b : Bool) : Float :=
  if b then 1.0 else 0.0

/-- What an operator between two operands makes of their values. -/
def Token.applyBinary (op : Token) (x y : Float) : Except Error Float :=
  match op.kind with
  | .plus => .ok (x + y)
  | .minus => .ok (x - y)
  | .star => .ok (x * y)
  | .slash => if y == 0.0 then .error (.arithmetic op "Division by zero.") else .ok (x / y)
  | .equalEqual => .ok (truth (x == y))
  | _ => .error (.notOperator op)

/-- What an operator before an operand makes of its value: every value but one is false. -/
def Token.applyUnary (op : Token) (x : Float) : Except Error Float :=
  match op.kind with
  | .bang => .ok (truth (x != 1.0))
  | _ => .error (.notOperator op)

namespace Effect

/-- The value that evaluating `e` gave, which is needed. -/
def require (e : Expr) : Option Float → Effect Float
  | some x => return x
  | none => throw (.badValue e.token "'print' does not produce a value.")

/-- The value of a variable, which must have one. -/
def fetch (name : Token) : Effect Float := do
  match (← get).store.get? name.lexeme with
  | some x => return x
  | none => throw (.undefinedName name)

/-- Gives a variable a value. -/
def assign (name : Token) (x : Float) : Effect Unit :=
  modify fun s => { s with store := s.store.set name.lexeme x }

/-- Shows the prompt of the session, if it has one. -/
def showPrompt : Effect Unit := do
  match (← get).prompt with
  | some prompt => announce prompt
  | none => return

/-- The number that a line spells, blanks at its ends aside. -/
def numberOf (keyword : Token) (line : Option String) : Except Error Float :=
  match line with
  | none => .error (.badValue keyword "No input left to read.")
  | some line =>
    let text := Text.trim line
    match Numeral.read? text with
    | some x => .ok x
    | none => .error (.badValue keyword ("Could not convert '" ++ text ++ "' into a number."))

/-- Reads a number from a line of its own. -/
def readNumber (keyword : Token) : Effect Float := do
  showPrompt
  MonadExcept.ofExcept (numberOf keyword (← takeLine))

end Effect

/-! ## Expressions -/

/-- Evaluates an expression; a `print` gives no value. -/
def Expr.eval : Expr → Effect (Option Float)
  | .assign name value => do
    let x ← Effect.require value (← value.eval)
    Effect.assign name x
    return some x
  | .binary left op right => do
    let x ← Effect.require left (← left.eval)
    let y ← Effect.require right (← right.eval)
    let z ← MonadExcept.ofExcept (op.applyBinary x y)
    return some z
  | .input keyword => do
    let x ← Effect.readNumber keyword
    return some x
  | .literal _ value => return some value
  | .print _ value => do
    let x ← Effect.require value (← value.eval)
    Effect.write (Numeral.write x ++ "\n")
    return none
  | .unary op operand => do
    let x ← Effect.require operand (← operand.eval)
    let z ← MonadExcept.ofExcept (op.applyUnary x)
    return some z
  | .var name => do
    let x ← Effect.fetch name
    return some x

/-- Evaluates an expression whose value is needed. -/
def Expr.value (e : Expr) : Effect Float := do
  Effect.require e (← e.eval)

/-- Evaluates a condition. -/
def Expr.holds (e : Expr) : Effect Bool := do
  return (← e.value) == 1.0

/-! ## Statements and programs -/

mutual

/-- Executes a statement. -/
def Stmt.exec : Stmt → Effect Outcome
  | .block _ body => execAll body
  | .expression e => do
    discard e.eval
    return .completed
  | .halt _ => return .halted
  | .ifThen _ condition thenBranch => do
    if ← condition.holds then thenBranch.exec else return .completed
  | .ifElse _ condition thenBranch elseBranch => do
    if ← condition.holds then thenBranch.exec else elseBranch.exec

/-- Executes statements in order up to the first that halts. -/
def Stmt.execAll : List Stmt → Effect Outcome
  | [] => return .completed
  | s :: rest => do
    match ← s.exec with
    | .completed => execAll rest
    | .halted => return .halted

end

/-- Runs a program.  The writer is flushed at the end, after an error too. -/
def Program.run (p : Program) : Effect Outcome :=
  (Stmt.execAll p.body).thenAlways Effect.flush

/-- Runs a source text as a program; a text that is no program changes nothing. -/
def Effect.runSource (source : String) : Effect Outcome := do
  let p ← MonadExcept.ofExcept (Program.ofSource source)
  p.run

end NumScript
