/-
  How trees are written.

  A tree keeps only the tokens that matter, so to write it down the other signs have to be supplied:
  parentheses, `=`, `else` and closing braces (`Signs`).  `Program.write` puts parentheses around
  every operand, condition, printed value and assigned value, whether they are needed or not.

  Not every tree can be written.  Its tokens must be of the kinds they stand for
  (`Program.WellFormed`), and an `if` that has an `else` must not have a first branch that would
  take that `else` for itself (`Program.Settled`): braces around the branch would help, but they
  make another tree.
-/
import NumScript.Tree.Basic

namespace NumScript

/-! ## Trees with the right tokens -/

/-- Operators between two operands. -/
def binaryOperators : List TokenKind :=
  [.plus, .minus, .star, .slash, .equalEqual]

/-- The operators between operands, one by one. -/
theorem mem_binaryOperators_iff {k : TokenKind} : k ∈ binaryOperators ↔
    k = .plus ∨ k = .minus ∨ k = .star ∨ k = .slash ∨ k = .equalEqual := by
  simp only [binaryOperators, List.mem_cons, List.not_mem_nil, or_false]

/-- Every token of the expression is of the kind that it stands for. -/
def Expr.WellFormed : Expr → Prop
  | .assign name value => name.kind = .identifier ∧ value.WellFormed
  | .binary left op right => left.WellFormed ∧ op.kind ∈ binaryOperators ∧ right.WellFormed
  | .input keyword => keyword.kind = .inputWord
  | .literal token value => token.kind = .number value
  | .print keyword value => keyword.kind = .printWord ∧ value.WellFormed
  | .unary op operand => op.kind = .bang ∧ operand.WellFormed
  | .var name => name.kind = .identifier

mutual

/-- Every token of the statement is of the kind that it stands for. -/
def Stmt.WellFormed : Stmt → Prop
  | .block brace body => brace.kind = .leftBrace ∧ WellFormedAll body
  | .expression e => e.WellFormed
  | .halt keyword => keyword.kind = .haltWord
  | .ifThen keyword condition thenBranch =>
    keyword.kind = .ifWord ∧ condition.WellFormed ∧ thenBranch.WellFormed
  | .ifElse keyword condition thenBranch elseBranch =>
    keyword.kind = .ifWord ∧ condition.WellFormed ∧ thenBranch.WellFormed ∧ elseBranch.WellFormed

/-- The same of every statement of a list. -/
def Stmt.WellFormedAll : List Stmt → Prop
  | [] => True
  | s :: rest => s.WellFormed ∧ WellFormedAll rest

end

/-- Every token of the program is of the kind that it stands for. -/
def Program.WellFormed (p : Program) : Prop :=
  Stmt.WellFormedAll p.body

/-! ## Trees whose `else`s stay where they are -/

/-- The statement is an `if` without `else`, or one whose second branch ends like that. -/
def Stmt.IsOpen : Stmt → Prop
  | .ifThen _ _ _ => True
  | .ifElse _ _ _ elseBranch => elseBranch.IsOpen
  | _ => False

mutual

/-- No `if` with an `else` has an open first branch. -/
def Stmt.Settled : Stmt → Prop
  | .block _ body => SettledAll body
  | .ifThen _ _ thenBranch => thenBranch.Settled
  | .ifElse _ _ thenBranch elseBranch =>
    thenBranch.Settled ∧ ¬ thenBranch.IsOpen ∧ elseBranch.Settled
  | _ => True

/-- The same of every statement of a list. -/
def Stmt.SettledAll : List Stmt → Prop
  | [] => True
  | s :: rest => s.Settled ∧ SettledAll rest

end

/-- No `if` of the program that has an `else` has an open first branch. -/
def Program.Settled (p : Program) : Prop :=
  Stmt.SettledAll p.body

/-! ## Writing -/

/-- The tokens that no tree keeps. -/
structure Signs where
  leftParen : Token
  rightParen : Token
  equal : Token
  elseWord : Token
  rightBrace : Token
  leftParen_kind : leftParen.kind = .leftParen
  rightParen_kind : rightParen.kind = .rightParen
  equal_kind : equal.kind = .equal
  elseWord_kind : elseWord.kind = .elseWord
  rightBrace_kind : rightBrace.kind = .rightBrace

/-- The signs as they stand in a text, all on one line. -/
def Signs.onLine (line : Nat) : Signs where
  leftParen := ⟨.leftParen, "(", line⟩
  rightParen := ⟨.rightParen, ")", line⟩
  equal := ⟨.equal, "=", line⟩
  elseWord := ⟨.elseWord, "else", line⟩
  rightBrace := ⟨.rightBrace, "\x7d", line⟩
  leftParen_kind := rfl
  rightParen_kind := rfl
  equal_kind := rfl
  elseWord_kind := rfl
  rightBrace_kind := rfl

/-- Some tokens in parentheses. -/
def Signs.group (signs : Signs) (tokens : List Token) : List Token :=
  signs.leftParen :: (tokens ++ [signs.rightParen])

/-- An expression, all its parts in parentheses. -/
def Expr.write (signs : Signs) : Expr → List Token
  | .assign name value => name :: signs.equal :: signs.group (value.write signs)
  | .binary left op right =>
    signs.group (left.write signs) ++ op :: signs.group (right.write signs)
  | .input keyword => [keyword]
  | .literal token _ => [token]
  | .print keyword value => keyword :: signs.group (value.write signs)
  | .unary op operand => op :: signs.group (operand.write signs)
  | .var name => [name]

mutual

/-- A statement, its conditions in parentheses and its blocks in braces. -/
def Stmt.write (signs : Signs) : Stmt → List Token
  | .block brace body => brace :: (writeAll signs body ++ [signs.rightBrace])
  | .expression e => e.write signs
  | .halt keyword => [keyword]
  | .ifThen keyword condition thenBranch =>
    keyword :: (signs.group (condition.write signs) ++ thenBranch.write signs)
  | .ifElse keyword condition thenBranch elseBranch =>
    keyword :: (signs.group (condition.write signs) ++ thenBranch.write signs ++
      signs.elseWord :: elseBranch.write signs)

/-- Some statements, with nothing between them. -/
def Stmt.writeAll (signs : Signs) : List Stmt → List Token
  | [] => []
  | s :: rest => s.write signs ++ writeAll signs rest

end

/-- A program, written statement by statement. -/
def Program.write (signs : Signs) (p : Program) : List Token :=
  Stmt.writeAll signs p.body

end NumScript
