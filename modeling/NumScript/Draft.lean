/-
  Drafts: programs of which only the first tokens have been read.

  A draft holds the statements that are complete, the constructs that are still open around the
  place where reading goes on, and what may come at that place (its FOCUS).  One token turns a draft
  into the next (`Draft.step`) or does not fit; at the end of the tokens a draft is a program
  (`Draft.finish`) or something is missing.  No token is ever looked at twice, and nothing is tried
  and taken back.

  The rules of the language are in the order in which open constructs are closed:

    * an operator closes those to its left that bind at least as tightly, so that operators of one
      level group to the left, and `!` binds tightest of all;
    * `print` and `=` reach as far to the right as they can, since only the end of the expression
      closes them;
    * a statement ends where the next token cannot continue it;
    * `else` belongs to the nearest `if` that has none, and every other token closes such an `if`.
-/
import NumScript.Error
import NumScript.Tree.Basic

namespace NumScript

/-! ## Open constructs of an expression -/

/-- A construct that waits for the value to its right. -/
inductive Hole where
  /-- An operator before its only operand. -/
  | operand (op : Token)
  /-- An operator between two operands, of which the left one is known. -/
  | right (left : Expr) (op : Token)
  /-- An assignment to a name. -/
  | assigned (name : Token)
  /-- A `print` before what it writes. -/
  | printed (keyword : Token)
  /-- An open parenthesis. -/
  | group

namespace Hole

/-- The expression that a construct and the value it waited for make. -/
def fill (e : Expr) : Hole → Expr
  | .operand op => .unary op e
  | .right left op => .binary left op e
  | .assigned name => .assign name e
  | .printed keyword => .print keyword e
  | .group => e

/-- Constructs that bind at least as tightly as an operator of this level are closed before it. -/
def closeTighter (level : Nat) (e : Expr) : List Hole → Expr × List Hole
  | .operand op :: outer => closeTighter level (.unary op e) outer
  | .right left op :: outer =>
    if level ≤ op.kind.level then closeTighter level (.binary left op e) outer
    else (e, .right left op :: outer)
  | holes => (e, holes)

/-- All constructs are closed up to the nearest parenthesis, and what is open outside of it is
    given back; without a parenthesis the whole expression is closed. -/
def closeAll (e : Expr) : List Hole → Expr × Option (List Hole)
  | [] => (e, none)
  | .group :: outer => (e, some outer)
  | hole :: outer => closeAll (hole.fill e) outer

/-- A name directly inside these constructs may be assigned to: it is not an operand. -/
def allowsTarget : List Hole → Bool
  | .operand _ :: _ => false
  | .right _ _ :: _ => false
  | _ => true

end Hole

/-! ## The place where reading goes on -/

/-- What is open around an expression. -/
structure Context where
  /-- The `if` whose condition the expression is, if it is one; else it is a statement. -/
  condition : Option Token
  /-- The open constructs of the expression, innermost first. -/
  holes : List Hole

/-- A context with one more construct open inside. -/
def Context.push (hole : Hole) (context : Context) : Context :=
  { context with holes := hole :: context.holes }

/-- What may come next. -/
inductive Focus where
  /-- A statement. -/
  | statement
  /-- An operand. -/
  | operand (context : Context)
  /-- Whatever continues or ends an expression; `grouped` says that its last operand ended with
      a parenthesis. -/
  | value (e : Expr) (grouped : Bool) (context : Context)
  /-- An `else` for this statement, or whatever follows a statement. -/
  | finished (s : Stmt)

/-- A construct that waits for statements. -/
inductive Opening where
  /-- An `if` before its first branch. -/
  | thenBranch (keyword : Token) (condition : Expr)
  /-- An `if` before its second branch. -/
  | elseBranch (keyword : Token) (condition : Expr) (thenBranch : Stmt)
  /-- A block and its statements so far, the latest first. -/
  | block (brace : Token) (body : List Stmt)

/-- A program of which only the first tokens have been read. -/
structure Draft where
  /-- What may come next. -/
  focus : Focus
  /-- The open constructs around that place, innermost first. -/
  openings : List Opening
  /-- The statements of the program so far, the latest first. -/
  body : List Stmt

namespace Draft

/-- The draft before the first token. -/
def empty : Draft where
  focus := .statement
  openings := []
  body := []

/-! ## What is told about a token that does not fit -/

/-- Something else stands where an expression has to begin. -/
def expectedExpression : String :=
  "Expected expression."

/-- Something else stands where a parenthesis has to be closed. -/
def expectedParen : String :=
  "Expected ')' after expression."

/-- A block is not closed. -/
def expectedBrace : String :=
  "Expected '\x7d' after block."

/-- Something that is not a name of its own stands before an assignment sign. -/
def invalidTarget : String :=
  "Invalid assignment target."

/-! ## Closing statements -/

/-- Every `if` whose last branch is this statement is complete; what is open outside of them is
    given back. -/
def closeIfs (s : Stmt) : List Opening → Stmt × List Opening
  | .thenBranch keyword condition :: outer => closeIfs (.ifThen keyword condition s) outer
  | .elseBranch keyword condition first :: outer =>
    closeIfs (.ifElse keyword condition first s) outer
  | openings => (s, openings)

/-- The nearest `if` without `else` whose first branch ends with this statement gets one. -/
def attachElse? (s : Stmt) : List Opening → Option (List Opening)
  | .thenBranch keyword condition :: outer => some (.elseBranch keyword condition s :: outer)
  | .elseBranch keyword condition first :: outer =>
    attachElse? (.ifElse keyword condition first s) outer
  | _ => none

/-- The draft with one more complete statement, and the next one to begin. -/
def add (s : Stmt) (openings : List Opening) (body : List Stmt) : Draft :=
  match closeIfs s openings with
  | (s, .block brace inner :: outer) => ⟨.statement, .block brace (s :: inner) :: outer, body⟩
  | (s, openings) => ⟨.statement, openings, s :: body⟩

/-! ## One token -/

/-- A token where an operand has to come. -/
def stepOperand (context : Context) (t : Token) : Except Error Focus :=
  match t.kind with
  | .number value => .ok (.value (.literal t value) false context)
  | .identifier => .ok (.value (.var t) false context)
  | .inputWord => .ok (.value (.input t) false context)
  | .printWord => .ok (.operand (context.push (.printed t)))
  | .bang => .ok (.operand (context.push (.operand t)))
  | .leftParen => .ok (.operand (context.push .group))
  | _ => .error (.misplaced t expectedExpression)

/-- A token where a statement begins.  A closing brace may end the innermost construct if that is a
    block. -/
def stepStatement (openings : List Opening) (body : List Stmt) (t : Token) : Except Error Draft :=
  match t.kind, openings with
  | .leftBrace, _ => .ok ⟨.statement, .block t [] :: openings, body⟩
  | .rightBrace, .block brace inner :: outer =>
    .ok ⟨.finished (.block brace inner.reverse), outer, body⟩
  | .ifWord, _ => .ok ⟨.operand ⟨some t, []⟩, openings, body⟩
  | .haltWord, _ => .ok ⟨.finished (.halt t), openings, body⟩
  | _, _ => (stepOperand ⟨none, []⟩ t).map fun focus => ⟨focus, openings, body⟩

/-- A token after a complete statement: an `else` for it, or the next statement. -/
def stepFinished (s : Stmt) (openings : List Opening) (body : List Stmt) (t : Token) :
    Except Error Draft :=
  match t.kind, attachElse? s openings with
  | .elseWord, some openings => .ok ⟨.statement, openings, body⟩
  | _, _ =>
    let next := add s openings body
    stepStatement next.openings next.body t

/-- A token after an expression that may go on, where neither an operator nor an assignment sign
    stands: a parenthesis or the whole expression ends before it. -/
def stepClose (e : Expr) (context : Context) (openings : List Opening) (body : List Stmt)
    (t : Token) : Except Error Draft :=
  match Hole.closeAll e context.holes with
  | (e, some outer) =>
    if t.kind = .rightParen then
      .ok ⟨.value e true { context with holes := outer }, openings, body⟩
    else .error (.misplaced t expectedParen)
  | (e, none) =>
    match context.condition with
    | some keyword => stepStatement (.thenBranch keyword e :: openings) body t
    | none => stepFinished (.expression e) openings body t

/-- A token after an expression that may go on. -/
def stepValue (e : Expr) (grouped : Bool) (context : Context) (openings : List Opening)
    (body : List Stmt) (t : Token) : Except Error Draft :=
  if 0 < t.kind.level then
    let (left, outer) := Hole.closeTighter t.kind.level e context.holes
    .ok ⟨.operand { context with holes := .right left t :: outer }, openings, body⟩
  else if t.kind = .equal then
    match e, grouped, Hole.allowsTarget context.holes with
    | .var name, false, true => .ok ⟨.operand (context.push (.assigned name)), openings, body⟩
    | _, _, _ => .error (.misplaced t invalidTarget)
  else stepClose e context openings body t

/-- The draft with one more token, if the token fits. -/
def step (d : Draft) (t : Token) : Except Error Draft :=
  match d.focus with
  | .statement => stepStatement d.openings d.body t
  | .operand context =>
    (stepOperand context t).map fun focus => ⟨focus, d.openings, d.body⟩
  | .value e grouped context => stepValue e grouped context d.openings d.body t
  | .finished s => stepFinished s d.openings d.body t

/-! ## The end of the tokens -/

/-- The program that a draft is between two statements, or what its innermost construct lacks. -/
def finishStatement (line : Nat) (openings : List Opening) (body : List Stmt) :
    Except Error Program :=
  match openings with
  | [] => .ok ⟨body.reverse⟩
  | .block _ _ :: _ => .error (.unexpectedEnd line expectedBrace)
  | _ => .error (.unexpectedEnd line expectedExpression)

/-- The program that a draft is after a complete statement. -/
def finishAfter (line : Nat) (s : Stmt) (openings : List Opening) (body : List Stmt) :
    Except Error Program :=
  let last := add s openings body
  finishStatement line last.openings last.body

/-- The program that a draft is if no tokens are left, `line` being the line of the last one. -/
def finish (line : Nat) (d : Draft) : Except Error Program :=
  match d.focus with
  | .statement => finishStatement line d.openings d.body
  | .operand _ => .error (.unexpectedEnd line expectedExpression)
  | .value e _ context =>
    match Hole.closeAll e context.holes, context.condition with
    | (_, some _), _ => .error (.unexpectedEnd line expectedParen)
    | (_, none), some _ => .error (.unexpectedEnd line expectedExpression)
    | (e, none), none => finishAfter line (.expression e) d.openings d.body
  | .finished s => finishAfter line s d.openings d.body

end Draft

end NumScript
