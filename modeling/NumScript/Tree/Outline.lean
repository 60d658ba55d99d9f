/-
  The outline of a program: its tree in one line.

  Every construct with parts is written in parentheses, its name or operator first and its parts in
  order, each after a space; the parts without parts of their own are written as they are.  A
  number is written by its value and not as it was spelled.
-/
import NumScript.Numeral
import NumScript.Tree.Basic

namespace NumScript

/-- A construct in parentheses: its head, then its parts. -/
def parenthesize (head : String) (parts : List String) : String :=
  "(" ++ head ++ String.join (parts.map (" " ++ ·)) ++ ")"

/-- An expression in one line. -/
def Expr.outline : Expr → String
  | .assign name value => parenthesize "=" [name.lexeme, value.outline]
  | .binary left op right => parenthesize op.lexeme [left.outline, right.outline]
  | .input _ => "input"
  | .literal _ value => Numeral.write value
  | .print _ value => parenthesize "print" [value.outline]
  | .unary op operand => parenthesize op.lexeme [operand.outline]
  | .var name => name.lexeme

mutual

/-- A statement in one line. -/
def Stmt.outline : Stmt → String
  | .block _ body => parenthesize "block" (outlineAll body)
  | .expression e => e.outline
  | .halt _ => "halt"
  | .ifThen _ condition thenBranch =>
    parenthesize "if" [condition.outline, thenBranch.outline]
  | .ifElse _ condition thenBranch elseBranch =>
    parenthesize "if" [condition.outline, thenBranch.outline, elseBranch.outline]

/-- The lines of some statements. -/
def Stmt.outlineAll : List Stmt → List String
  | [] => []
  | s :: rest => s.outline :: outlineAll rest

end

/-- A program in one line. -/
def Program.outline (p : Program) : String :=
  parenthesize "program" (Stmt.outlineAll p.body)

end NumScript
