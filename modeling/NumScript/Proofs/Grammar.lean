/-
  The grammar of programs.

  A DERIVATION shows how a list of tokens is built up by the rules of the language.  It keeps every
  token, parentheses, `=`, `else` and braces included, so its `tokens` are what it derives; its
  `tree` is the program it means.  Whether a list of tokens is a program is a question about
  derivations alone and says nothing about how programs are read.

      Program    := Statement*
      Statement  := '{' Statement* '}'  |  'if' Assignment Statement ('else' Statement)?
                  | 'halt'  |  Assignment
      Assignment := NAME '=' Assignment  |  Equality
      Equality   := Term ('==' Term)*
      Term       := Factor (('+' | '-') Factor)*
      Factor     := Unary (('*' | '/') Unary)*
      Unary      := '!' Unary  |  Primary
      Primary    := '(' Assignment ')'  |  'print' Assignment  |  'input'  |  NUMBER  |  NAME

  The three rules for operators between operands differ only in their operators and operands
  (`Level`).  Some lists have several derivations: what `print` writes may end before an operator or
  behind it, and an `else` may belong to one `if` or to another.  Of these derivations one is meant
  (`Statement.IsMeant`): a `print` reaches as far to the right as it can, and an `else` belongs to
  the nearest `if` that has none.
-/
import NumScript.Tree.Basic

namespace NumScript.Grammar

/-! ## The rules for expressions -/

/-- Operators that bind equally tightly. -/
inductive Level where
  /-- `Equality := Term ('==' Term)*` -/
  | comparison
  /-- `Term := Factor (('+' | '-') Factor)*` -/
  | sum
  /-- `Factor := Unary (('*' | '/') Unary)*` -/
  | product
deriving DecidableEq

/-- What a part of an expression is. -/
inductive Phrase where
  | assignment
  | chain (level : Level)
  | unary
  | primary

namespace Level

/-- The operators of a level. -/
def operators : Level → List TokenKind
  | comparison => [.equalEqual]
  | sum => [.plus, .minus]
  | product => [.star, .slash]

/-- What stands between the operators of a level. -/
def operand : Level → Phrase
  | comparison => .chain .sum
  | sum => .chain .product
  | product => .unary

end Level

mutual

/-- A derivation of a part of an expression. -/
inductive Derivation : Phrase → Type where
  /-- `Assignment := NAME '=' Assignment` -/
  | assign (name sign : Token) (value : Derivation .assignment)
      (name_kind : name.kind = .identifier) (sign_kind : sign.kind = .equal) :
      Derivation .assignment
  /-- `Assignment := Equality` -/
  | plain (e : Derivation (.chain .comparison)) : Derivation .assignment
  /-- An operand, and whatever the operators of its level add to it. -/
  | chain {level : Level} (first : Derivation level.operand) (rest : Tail level) :
      Derivation (.chain level)
  /-- `Unary := '!' Unary` -/
  | bang (op : Token) (operand : Derivation .unary) (op_kind : op.kind = .bang) :
      Derivation .unary
  /-- `Unary := Primary` -/
  | primary (e : Derivation .primary) : Derivation .unary
  /-- `Primary := '(' Assignment ')'` -/
  | group (left : Token) (e : Derivation .assignment) (right : Token)
      (left_kind : left.kind = .leftParen) (right_kind : right.kind = .rightParen) :
      Derivation .primary
  /-- `Primary := 'print' Assignment` -/
  | print (keyword : Token) (e : Derivation .assignment) (kind : keyword.kind = .printWord) :
      Derivation .primary
  /-- `Primary := 'input'` -/
  | input (keyword : Token) (kind : keyword.kind = .inputWord) : Derivation .primary
  /-- `Primary := NUMBER` -/
  | number (token : Token) (value : Float) (kind : token.kind = .number value) :
      Derivation .primary
  /-- `Primary := NAME` -/
  | name (token : Token) (kind : token.kind = .identifier) : Derivation .primary

/-- Operators of one level, each with the operand behind it. -/
inductive Tail : Level → Type where
  | done {level : Level} : Tail level
  | more {level : Level} (op : Token) (operand : Derivation level.operand) (rest : Tail level)
      (op_kind : op.kind ∈ level.operators) : Tail level

end

mutual

/-- The tokens that are derived. -/
def Derivation.tokens : {p : Phrase} → Derivation p → List Token
  | _, .assign name sign value _ _ => name :: sign :: value.tokens
  | _, .plain e => e.tokens
  | _, .chain first rest => first.tokens ++ rest.tokens
  | _, .bang op operand _ => op :: operand.tokens
  | _, .primary e => e.tokens
  | _, .group left e right _ _ => left :: (e.tokens ++ [right])
  | _, .print keyword e _ => keyword :: e.tokens
  | _, .input keyword _ => [keyword]
  | _, .number token _ _ => [token]
  | _, .name token _ => [token]

/-- The tokens behind the first operand. -/
def Tail.tokens : {level : Level} → Tail level → List Token
  | _, .done => []
  | _, .more op operand rest _ => op :: (operand.tokens ++ rest.tokens)

end

mutual

/-- The expression that is meant. -/
def Derivation.tree : {p : Phrase} → Derivation p → Expr
  | _, .assign name _ value _ _ => .assign name value.tree
  | _, .plain e => e.tree
  | _, .chain first rest => rest.fold first.tree
  | _, .bang op operand _ => .unary op operand.tree
  | _, .primary e => e.tree
  | _, .group _ e _ _ _ => e.tree
  | _, .print keyword e _ => .print keyword e.tree
  | _, .input keyword _ => .input keyword
  | _, .number token value _ => .literal token value
  | _, .name token _ => .var token

/-- Operators of one level group to the left: each has everything before it as its left operand. -/
def Tail.fold : {level : Level} → Tail level → Expr → Expr
  | _, .done, left => left
  | _, .more op operand rest _, left => rest.fold (.binary left op operand.tree)

end

/-! ## The rules for statements -/

/-- A derivation of a statement.  A program, and the inside of a block, is a list of them. -/
inductive Statement where
  /-- `Statement := '{' Statement* '}'` -/
  | block (left : Token) (body : List Statement) (right : Token)
      (left_kind : left.kind = .leftBrace) (right_kind : right.kind = .rightBrace)
  /-- `Statement := 'if' Assignment Statement` -/
  | ifThen (keyword : Token) (condition : Derivation .assignment) (thenBranch : Statement)
      (kind : keyword.kind = .ifWord)
  /-- `Statement := 'if' Assignment Statement 'else' Statement` -/
  | ifElse (keyword : Token) (condition : Derivation .assignment) (thenBranch : Statement)
      (separator : Token) (elseBranch : Statement)
      (kind : keyword.kind = .ifWord) (separator_kind : separator.kind = .elseWord)
  /-- `Statement := 'halt'` -/
  | halt (keyword : Token) (kind : keyword.kind = .haltWord)
  /-- `Statement := Assignment` -/
  | expression (e : Derivation .assignment)

mutual

/-- The tokens of a statement. -/
def Statement.tokens : Statement → List Token
  | .block left body right _ _ => left :: (tokensAll body ++ [right])
  | .ifThen keyword condition thenBranch _ => keyword :: (condition.tokens ++ thenBranch.tokens)
  | .ifElse keyword condition thenBranch separator elseBranch _ _ =>
    keyword :: (condition.tokens ++ thenBranch.tokens ++ separator :: elseBranch.tokens)
  | .halt keyword _ => [keyword]
  | .expression e => e.tokens

/-- The tokens of some statements, which nothing separates. -/
def Statement.tokensAll : List Statement → List Token
  | [] => []
  | s :: rest => s.tokens ++ tokensAll rest

end

mutual

/-- The statement that is meant. -/
def Statement.tree : Statement → Stmt
  | .block left body _ _ _ => .block left (treeAll body)
  | .ifThen keyword condition thenBranch _ => .ifThen keyword condition.tree thenBranch.tree
  | .ifElse keyword condition thenBranch _ elseBranch _ _ =>
    .ifElse keyword condition.tree thenBranch.tree elseBranch.tree
  | .halt keyword _ => .halt keyword
  | .expression e => .expression e.tree

/-- The statements that are meant. -/
def Statement.treeAll : List Statement → List Stmt
  | [] => []
  | s :: rest => s.tree :: treeAll rest

end

/-! ## What stands behind a derivation -/

/-- A chain of operands has the tokens of its first operand and then those of its tail. -/
theorem Derivation.tokens_chain_append {level : Level} (first : Derivation level.operand)
    (rest : Tail level) (after : List Token) :
    (chain first rest).tokens ++ after = first.tokens ++ (rest.tokens ++ after) := by
  rw [tokens, List.append_assoc]

/-- A group has the tokens of its expression between its parentheses. -/
theorem Derivation.tokens_group_append (left right : Token) (e : Derivation .assignment)
    (left_kind : left.kind = .leftParen) (right_kind : right.kind = .rightParen)
    (after : List Token) :
    (group left e right left_kind right_kind).tokens ++ after =
      left :: (e.tokens ++ right :: after) := by
  rw [tokens, List.cons_append, List.append_assoc]
  rfl

/-- A tail has an operator, the tokens of an operand and those of what goes on behind. -/
theorem Tail.tokens_more_append {level : Level} (op : Token) (operand : Derivation level.operand)
    (rest : Tail level) (kind : op.kind ∈ level.operators) (after : List Token) :
    (more op operand rest kind).tokens ++ after =
      op :: (operand.tokens ++ (rest.tokens ++ after)) := by
  rw [tokens, List.cons_append, List.append_assoc]

namespace Statement

/-- A block has the tokens of its statements between its braces. -/
theorem tokens_block_append (left right : Token) (body : List Statement)
    (left_kind : left.kind = .leftBrace) (right_kind : right.kind = .rightBrace)
    (after : List Token) :
    (block left body right left_kind right_kind).tokens ++ after =
      left :: (tokensAll body ++ right :: after) := by
  rw [tokens, List.cons_append, List.append_assoc]
  rfl

theorem tokens_ifThen_append (keyword : Token) (condition : Derivation .assignment)
    (thenBranch : Statement) (kind : keyword.kind = .ifWord) (after : List Token) :
    (ifThen keyword condition thenBranch kind).tokens ++ after =
      keyword :: (condition.tokens ++ (thenBranch.tokens ++ after)) := by
  rw [tokens, List.cons_append, List.append_assoc]

theorem tokens_ifElse_append (keyword separator : Token) (condition : Derivation .assignment)
    (thenBranch elseBranch : Statement) (kind : keyword.kind = .ifWord)
    (separator_kind : separator.kind = .elseWord) (after : List Token) :
    (ifElse keyword condition thenBranch separator elseBranch kind separator_kind).tokens ++ after =
      keyword :: (condition.tokens ++
        (thenBranch.tokens ++ separator :: (elseBranch.tokens ++ after))) := by
  rw [tokens, List.cons_append, List.append_assoc, List.append_assoc, List.cons_append]

theorem tokensAll_cons_append (s : Statement) (rest : List Statement) (after : List Token) :
    tokensAll (s :: rest) ++ after = s.tokens ++ (tokensAll rest ++ after) := by
  rw [tokensAll, List.append_assoc]

end Statement

/-! ## Which derivation is meant -/

/-- No expression that begins where this one begins reaches further, `after` being the tokens that
    stand behind it. -/
def Derivation.IsLongest (e : Derivation .assignment) (after : List Token) : Prop :=
  ∀ (longer : Derivation .assignment) (rest : List Token),
    longer.tokens ++ rest = e.tokens ++ after → longer.tokens.length ≤ e.tokens.length

mutual

/-- What is said of a `print` holds of every one in the derivation: of what it writes, and of the
    tokens that stand behind that.  `after` are the tokens that stand behind the derivation. -/
def Derivation.EachPrint (P : Derivation .assignment → List Token → Prop) :
    {p : Phrase} → Derivation p → List Token → Prop
  | _, .assign _ _ value _ _, after => value.EachPrint P after
  | _, .plain e, after => e.EachPrint P after
  | _, .chain first rest, after =>
    first.EachPrint P (rest.tokens ++ after) ∧ rest.EachPrint P after
  | _, .bang _ operand _, after => operand.EachPrint P after
  | _, .primary e, after => e.EachPrint P after
  | _, .group _ e right _ _, after => e.EachPrint P (right :: after)
  | _, .print _ e _, after => e.EachPrint P after ∧ P e after
  | _, .input _ _, _ => True
  | _, .number _ _ _, _ => True
  | _, .name _ _, _ => True

/-- The same of every operand behind the first. -/
def Tail.EachPrint (P : Derivation .assignment → List Token → Prop) :
    {level : Level} → Tail level → List Token → Prop
  | _, .done, _ => True
  | _, .more _ operand rest _, after =>
    operand.EachPrint P (rest.tokens ++ after) ∧ rest.EachPrint P after

end

mutual

/-- The same of every `print` in a statement. -/
def Statement.EachPrint (P : Derivation .assignment → List Token → Prop) :
    Statement → List Token → Prop
  | .block _ body right _ _, after => EachPrintAll P body (right :: after)
  | .ifThen _ condition thenBranch _, after =>
    condition.EachPrint P (thenBranch.tokens ++ after) ∧ thenBranch.EachPrint P after
  | .ifElse _ condition thenBranch separator elseBranch _ _, after =>
    condition.EachPrint P (thenBranch.tokens ++ separator :: (elseBranch.tokens ++ after)) ∧
      thenBranch.EachPrint P (separator :: (elseBranch.tokens ++ after)) ∧
      elseBranch.EachPrint P after
  | .halt _ _, _ => True
  | .expression e, after => e.EachPrint P after

/-- The same of every statement of a list. -/
def Statement.EachPrintAll (P : Derivation .assignment → List Token → Prop) :
    List Statement → List Token → Prop
  | [], _ => True
  | s :: rest, after => s.EachPrint P (tokensAll rest ++ after) ∧ EachPrintAll P rest after

end

/-- The statement ends with an `if` that has no `else`, so an `else` behind it would belong to that
    `if`. -/
def Statement.IsOpen : Statement → Prop
  | .ifThen _ _ _ _ => True
  | .ifElse _ _ _ _ elseBranch _ _ => elseBranch.IsOpen
  | _ => False

mutual

/-- Every `else` in the statement belongs to the nearest `if` that has none: the branch before it
    does not end with such an `if`. -/
def Statement.NearestElse : Statement → Prop
  | .block _ body _ _ _ => NearestElseAll body
  | .ifThen _ _ thenBranch _ => thenBranch.NearestElse
  | .ifElse _ _ thenBranch _ elseBranch _ _ =>
    thenBranch.NearestElse ∧ ¬ thenBranch.IsOpen ∧ elseBranch.NearestElse
  | _ => True

/-- The same of every statement of a list. -/
def Statement.NearestElseAll : List Statement → Prop
  | [] => True
  | s :: rest => s.NearestElse ∧ NearestElseAll rest

end

/-- This derivation of a program is the one that is meant: every `print` writes as much as it can,
    and every `else` belongs to the nearest `if` that has none. -/
def Statement.IsMeant (program : List Statement) : Prop :=
  EachPrintAll Derivation.IsLongest program [] ∧ NearestElseAll program

end NumScript.Grammar
