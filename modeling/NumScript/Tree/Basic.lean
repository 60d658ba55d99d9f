/-
  Programs as trees.

  An expression computes a number (all but `print`, which only writes one), a statement does
  something, and a program is a list of statements.  A tree keeps the tokens that matter: those
  that carry a name, a value or an operator, and those on which an error can be placed.
  Parentheses, the sign of an assignment, `else` and closing braces are not kept, because the shape
  of the tree says all that they said.

  Two programs are equal if they have the same shape and the same tokens, lines included.
-/
import NumScript.Token

namespace NumScript

/-! ## Expressions -/

/-- An expression. -/
inductive Expr where
  /-- Gives a variable a value, which is also the value of the expression. -/
  | assign (name : Token) (value : Expr)
  /-- Joins two values by an operator. -/
  | binary (left : Expr) (op : Token) (right : Expr)
  /-- Reads a number. -/
  | input (keyword : Token)
  /-- Is a number. -/
  | literal (token : Token) (value : Float)
  /-- Writes a value and has none itself. -/
  | print (keyword : Token) (value : Expr)
  /-- Changes one value by an operator. -/
  | unary (op : Token) (operand : Expr)
  /-- Is the value of a variable. -/
  | var (name : Token)
deriving DecidableEq

/-- The token on which an error about the value of an expression is placed. -/
def Expr.token : Expr → Token
  | .assign name _ => name
  | .binary _ op _ => op
  | .input keyword => keyword
  | .literal token _ => token
  | .print keyword _ => keyword
  | .unary op _ => op
  | .var name => name

/-! ## Statements -/

/-- A statement. -/
inductive Stmt where
  /-- Statements in braces. -/
  | block (brace : Token) (body : List Stmt)
  /-- An expression whose value is not needed. -/
  | expression (e : Expr)
  /-- Ends the program. -/
  | halt (keyword : Token)
  /-- A choice without alternative. -/
  | ifThen (keyword : Token) (condition : Expr) (thenBranch : Stmt)
  /-- A choice between two branches. -/
  | ifElse (keyword : Token) (condition : Expr) (thenBranch elseBranch : Stmt)

/-- A whole program. -/
structure Program where
  /-- Its statements in order. -/
  body : List Stmt

/-! ## Equality -/

mutual

/-- Whether two statements have the same shape and tokens. -/
def Stmt.same : Stmt → Stmt → Bool
  | .block b body, .block b' body' => b = b' && sameAll body body'
  | .expression e, .expression e' => e = e'
  | .halt k, .halt k' => k = k'
  | .ifThen k c s, .ifThen k' c' s' => k = k' && c = c' && s.same s'
  | .ifElse k c s t, .ifElse k' c' s' t' => k = k' && c = c' && s.same s' && t.same t'
  | _, _ => false

/-- Whether two lists of statements are the same one by one. -/
def Stmt.sameAll : List Stmt → List Stmt → Bool
  | [], [] => true
  | s :: rest, s' :: rest' => s.same s' && sameAll rest rest'
  | _, _ => false

end

mutual

/-- Statements with the same shape and tokens are equal. -/
theorem Stmt.eq_of_same : ∀ {s t : Stmt}, s.same t = true → s = t
  | .block b body, t, h => by
    cases t <;> simp [Stmt.same] at h
    rw [h.1, eq_of_sameAll h.2]
  | .expression e, t, h => by
    cases t <;> simp [Stmt.same] at h
    rw [h]
  | .halt k, t, h => by
    cases t <;> simp [Stmt.same] at h
    rw [h]
  | .ifThen k c s, t, h => by
    cases t <;> simp [Stmt.same] at h
    rw [h.1.1, h.1.2, eq_of_same h.2]
  | .ifElse k c s u, t, h => by
    cases t <;> simp [Stmt.same] at h
    rw [h.1.1.1, h.1.1.2, eq_of_same h.1.2, eq_of_same h.2]

theorem Stmt.eq_of_sameAll : ∀ {ss ts : List Stmt}, Stmt.sameAll ss ts = true → ss = ts
  | [], ts, h => by
    cases ts <;> simp [Stmt.sameAll] at h
    rfl
  | s :: ss, ts, h => by
    cases ts <;> simp [Stmt.sameAll] at h
    rw [eq_of_same h.1, eq_of_sameAll h.2]

end

mutual

/-- A statement has its own shape and tokens. -/
theorem Stmt.same_self : ∀ s : Stmt, s.same s = true
  | .block _ body => by simp [Stmt.same, sameAll_self body]
  | .expression _ => by simp [Stmt.same]
  | .halt _ => by simp [Stmt.same]
  | .ifThen _ _ s => by simp [Stmt.same, same_self s]
  | .ifElse _ _ s t => by simp [Stmt.same, same_self s, same_self t]

theorem Stmt.sameAll_self : ∀ ss : List Stmt, Stmt.sameAll ss ss = true
  | [] => rfl
  | s :: ss => by simp [Stmt.sameAll, same_self s, sameAll_self ss]

end

instance : DecidableEq Stmt := fun s t =>
  decidable_of_iff (s.same t = true) ⟨Stmt.eq_of_same, fun h => h ▸ Stmt.same_self s⟩

deriving instance DecidableEq for Program

end NumScript
