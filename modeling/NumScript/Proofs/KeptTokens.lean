/-
  Which tokens a tree keeps.

  A tree lists its tokens in the order of the text: an operator between its operands, a name or a
  keyword before what belongs to it (`Expr.tokens`, `Stmt.tokens`).  Reading drops closing braces,
  parentheses, `=` and `else`, and nothing else: what a program lists is what it was read from, less
  these five (`Cursor.tokens_program`).

  The crux is the fold of a chain of operators.  It takes the left operand apart from its place, one
  level deeper with every operator, but the listing of a left operand stays at the front; so the
  invariant of the fold is that it lists the tokens of the left operand and then its own
  (`Tail.tokens_fold`).  All other rules keep the order of their parts as it stands.
-/
import NumScript.Proofs.ParserImage

namespace NumScript

/-! ## The tokens of a tree -/

/-- The tokens of the expression in the order of the text. -/
def Expr.tokens : Expr → List Token
  | .assign name value => name :: value.tokens
  | .binary left op right => left.tokens ++ op :: right.tokens
  | .input keyword => [keyword]
  | .literal token _ => [token]
  | .print keyword value => keyword :: value.tokens
  | .unary op operand => op :: operand.tokens
  | .var name => [name]

mutual

/-- The tokens of the statement in the order of the text. -/
def Stmt.tokens : Stmt → List Token
  | .block brace body => brace :: tokensAll body
  | .expression e => e.tokens
  | .halt keyword => [keyword]
  | .ifThen keyword condition thenBranch => keyword :: (condition.tokens ++ thenBranch.tokens)
  | .ifElse keyword condition thenBranch elseBranch =>
    keyword :: (condition.tokens ++ thenBranch.tokens ++ elseBranch.tokens)

/-- The tokens of some statements in the order of the text. -/
def Stmt.tokensAll : List Stmt → List Token
  | [] => []
  | s :: rest => s.tokens ++ tokensAll rest

end

/-- The tokens of the program in the order of the text. -/
def Program.tokens (p : Program) : List Token :=
  Stmt.tokensAll p.body

/-! ## Kept tokens -/

/-- Trees keep tokens of this kind.  Of the others the shape of the tree says all that they said. -/
def TokenKind.isKept : TokenKind → Bool
  | .leftParen | .rightParen | .rightBrace | .equal | .elseWord => false
  | _ => true

/-- The tokens that trees keep, in their order. -/
def Token.kept (tokens : List Token) : List Token :=
  tokens.filter fun t => t.kind.isKept

namespace Token

theorem kept_append (tokens tokens' : List Token) :
    kept (tokens ++ tokens') = kept tokens ++ kept tokens' :=
  List.filter_append tokens tokens'

variable {t : Token} {k : TokenKind}

theorem kept_cons (kind : t.kind = k) (h : k.isKept = true) (rest : List Token) :
    kept (t :: rest) = t :: kept rest :=
  List.filter_cons_of_pos (by rw [kind, h])

theorem kept_cons_of_dropped (kind : t.kind = k) (h : k.isKept = false) (rest : List Token) :
    kept (t :: rest) = kept rest :=
  List.filter_cons_of_neg (by rw [kind, h]; exact Bool.false_ne_true)

/-- Only tokens of the list are kept. -/
theorem mem_of_mem_kept {tokens : List Token} (h : t ∈ kept tokens) : t ∈ tokens :=
  (List.mem_filter.mp h).1

end Token

namespace Grammar

open Token

/-- All operators are kept. -/
theorem Level.isKept_of_mem {level : Level} {k : TokenKind} (h : k ∈ level.operators) :
    k.isKept = true := by
  have each : ∀ k ∈ level.operators, k.isKept = true := by
    cases level <;> simp [operators, TokenKind.isKept]
  exact each k h

/-! ## Derivations -/

mutual

/-- The tree of a derivation lists the tokens that are kept of it. -/
theorem Derivation.tokens_tree : ∀ {p : Phrase} (d : Derivation p), d.tree.tokens = kept d.tokens
  | _, .assign name sign value name_kind sign_kind => by
    rw [Derivation.tree, Expr.tokens, Derivation.tokens, kept_cons name_kind rfl,
      kept_cons_of_dropped sign_kind rfl, value.tokens_tree]
  | _, .plain e => e.tokens_tree
  | _, .chain first rest => by
    rw [Derivation.tree, Derivation.tokens, kept_append, rest.tokens_fold, first.tokens_tree]
  | _, .bang op operand kind => by
    rw [Derivation.tree, Expr.tokens, Derivation.tokens, kept_cons kind rfl, operand.tokens_tree]
  | _, .primary e => e.tokens_tree
  | _, .group left e right left_kind right_kind => by
    rw [Derivation.tree, Derivation.tokens, kept_cons_of_dropped left_kind rfl, kept_append,
      kept_cons_of_dropped right_kind rfl, e.tokens_tree]
    exact (List.append_nil _).symm
  | _, .print keyword e kind => by
    rw [Derivation.tree, Expr.tokens, Derivation.tokens, kept_cons kind rfl, e.tokens_tree]
  | _, .input keyword kind => (kept_cons kind rfl []).symm
  | _, .number token value kind => (kept_cons kind rfl []).symm
  | _, .name token kind => (kept_cons kind rfl []).symm

/-- Folding lists the left operand first, and then what is kept of the operators and operands. -/
theorem Tail.tokens_fold : ∀ {level : Level} (r : Tail level) (left : Expr),
    (r.fold left).tokens = left.tokens ++ kept r.tokens
  | _, .done, left => (List.append_nil left.tokens).symm
  | _, .more op operand rest kind, left => by
    rw [Tail.fold, Tail.tokens, kept_cons rfl (Level.isKept_of_mem kind), kept_append,
      rest.tokens_fold, Expr.tokens, operand.tokens_tree, List.append_assoc, List.cons_append]

end

mutual

/-- The tree of a statement lists the tokens that are kept of it. -/
theorem Statement.tokens_tree : ∀ s : Statement, s.tree.tokens = kept s.tokens
  | .block left body right left_kind right_kind => by
    rw [tree, Stmt.tokens, tokens, kept_cons left_kind rfl, kept_append,
      kept_cons_of_dropped right_kind rfl, tokens_treeAll body]
    exact congrArg (left :: ·) (List.append_nil _).symm
  | .ifThen keyword condition thenBranch kind => by
    rw [tree, Stmt.tokens, tokens, kept_cons kind rfl, kept_append, condition.tokens_tree,
      tokens_tree thenBranch]
  | .ifElse keyword condition thenBranch separator elseBranch kind separator_kind => by
    rw [tree, Stmt.tokens, tokens, kept_cons kind rfl, kept_append, kept_append,
      kept_cons_of_dropped separator_kind rfl, condition.tokens_tree, tokens_tree thenBranch,
      tokens_tree elseBranch]
  | .halt keyword kind => (kept_cons kind rfl []).symm
  | .expression e => e.tokens_tree

/-- The tree of a derivation lists the tokens that are kept of it, statement by statement. -/
theorem Statement.tokens_treeAll : ∀ statements : List Statement,
    Stmt.tokensAll (treeAll statements) = kept (tokensAll statements)
  | [] => rfl
  | s :: rest => by
    rw [treeAll, Stmt.tokensAll, tokensAll, kept_append, tokens_tree s, tokens_treeAll rest]

end

end Grammar

/-! ## Programs -/

open Grammar

/-- A program lists the tokens that are kept of those it is read from. -/
theorem Program.tokens_of_ofTokens {tokens : List Token} {p : Program}
    (h : ofTokens tokens = .ok p) : p.tokens = Token.kept tokens := by
  obtain ⟨statements, rfl, _, rfl⟩ := exists_isMeant_tree h
  exact Statement.tokens_treeAll statements

/-- A program that tokens were read as is well formed. -/
theorem Program.wellFormed_of_ofTokens {tokens : List Token} {p : Program}
    (h : ofTokens tokens = .ok p) : p.WellFormed := by
  obtain ⟨statements, rfl, _, rfl⟩ := exists_isMeant_tree h
  exact Statement.wellFormed_treeAll statements

namespace Cursor

/-- Wherever a program is read without error, it is what the tokens that are left make. -/
theorem ofTokens_of_program {c : Cursor} {p : Program} (h : c.program.1 = .ok p) :
    Program.ofTokens c.rest = .ok p := by
  rw [Program.ofTokens_eq_ok_iff]
  exact (toOption_readFrom .empty 1 c.line c.rest).trans (congrArg Except.toOption h)

/-- Reading keeps every token that matters, once and in order.  A program that is read without error
    lists, token by token, what was left to be read less parentheses, closing braces, `=` and
    `else`; and each token stands in the tree for what its kind says, a literal with the value of
    its own token. -/
theorem tokens_program {c : Cursor} {p : Program} (h : c.program.1 = .ok p) :
    p.tokens = Token.kept c.rest ∧ p.WellFormed := by
  have made := ofTokens_of_program h
  exact ⟨Program.tokens_of_ofTokens made, Program.wellFormed_of_ofTokens made⟩

/-- Of `if (a - 1 - b) { x = !2 } else halt` five tokens are dropped, and the tree, in which the
    operators are nested to the left, lists the others as they stand. -/
theorem tokens_program_of_choice :
    let source : List Token :=
      [⟨.ifWord, "if", 3⟩, ⟨.leftParen, "(", 3⟩, ⟨.identifier, "a", 3⟩, ⟨.minus, "-", 3⟩,
        ⟨.number 1.0, "1", 3⟩, ⟨.minus, "-", 4⟩, ⟨.identifier, "b", 4⟩, ⟨.rightParen, ")", 4⟩,
        ⟨.leftBrace, "\x7b", 4⟩, ⟨.identifier, "x", 5⟩, ⟨.equal, "=", 5⟩, ⟨.bang, "!", 5⟩,
        ⟨.number 2.0, "2", 5⟩, ⟨.rightBrace, "\x7d", 6⟩, ⟨.elseWord, "else", 6⟩,
        ⟨.haltWord, "halt", 6⟩]
    ∃ p, (program ⟨source, 2⟩).1 = .ok p ∧ p.WellFormed ∧
      p.tokens =
        [⟨.ifWord, "if", 3⟩, ⟨.identifier, "a", 3⟩, ⟨.minus, "-", 3⟩, ⟨.number 1.0, "1", 3⟩,
          ⟨.minus, "-", 4⟩, ⟨.identifier, "b", 4⟩, ⟨.leftBrace, "\x7b", 4⟩,
          ⟨.identifier, "x", 5⟩, ⟨.bang, "!", 5⟩, ⟨.number 2.0, "2", 5⟩,
          ⟨.haltWord, "halt", 6⟩] := by
  intro source
  obtain ⟨p, read⟩ : ∃ p, (program ⟨source, 2⟩).1 = .ok p := ⟨_, rfl⟩
  obtain ⟨listed, wellFormed⟩ := tokens_program read
  exact ⟨p, read, wellFormed, listed⟩

end Cursor

end NumScript
