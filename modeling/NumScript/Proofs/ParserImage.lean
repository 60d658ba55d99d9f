/-
  Which trees are read.

  A tree is read from some tokens exactly if its own tokens are of the right kinds and no `else` of
  it would go to another `if`; and then it is read from the tokens that it is written with
  (`Program.image_exact`).

  Both halves go through derivations.  The tree of a derivation has tokens of the right kinds, and
  its `else`s stand with the nearest `if` if those of the derivation do.  In the other direction,
  writing a tree gives the tokens of a derivation with that tree (`Grammar.Spelled`).  Its parts are
  in parentheses, so whatever follows them they end there: this is why a `print` or an `=` may stand
  where an operator comes next.
-/
import NumScript.Proofs.ParserExactness
import NumScript.Proofs.Writing

namespace NumScript

open Grammar

/-! ## Trees of derivations -/

namespace Grammar

/-- The operators of a level stand between operands. -/
theorem Level.mem_binaryOperators {level : Level} {k : TokenKind} (h : k ∈ level.operators) :
    k ∈ binaryOperators := by
  have each : ∀ k ∈ level.operators, k ∈ binaryOperators := by
    cases level <;> simp [operators, binaryOperators]
  exact each k h

/-- An operator between operands is one of some level. -/
theorem Level.exists_of_mem {k : TokenKind} (h : k ∈ binaryOperators) :
    ∃ level : Level, k ∈ level.operators := by
  refine exists_of_level ?_
  rcases mem_binaryOperators_iff.mp h with rfl | rfl | rfl | rfl | rfl <;> decide

mutual

/-- The tokens that a derivation keeps in its tree are of the kinds they stand for. -/
theorem Derivation.wellFormed_tree : ∀ {p : Phrase} (d : Derivation p), d.tree.WellFormed
  | _, .assign _ _ value kind _ => ⟨kind, value.wellFormed_tree⟩
  | _, .plain e => e.wellFormed_tree
  | _, .chain first rest => rest.wellFormed_fold first.wellFormed_tree
  | _, .bang _ operand kind => ⟨kind, operand.wellFormed_tree⟩
  | _, .primary e => e.wellFormed_tree
  | _, .group _ e _ _ _ => e.wellFormed_tree
  | _, .print _ e kind => ⟨kind, e.wellFormed_tree⟩
  | _, .input _ kind => kind
  | _, .number _ _ kind => kind
  | _, .name _ kind => kind

/-- A chain of well-formed operands is well formed. -/
theorem Tail.wellFormed_fold : ∀ {level : Level} (r : Tail level) {left : Expr},
    left.WellFormed → (r.fold left).WellFormed
  | _, .done, _, h => h
  | _, .more _ operand rest kind, _, h =>
    rest.wellFormed_fold ⟨h, Level.mem_binaryOperators kind, operand.wellFormed_tree⟩

end

mutual

/-- The tree of a statement is well formed. -/
theorem Statement.wellFormed_tree : ∀ s : Statement, s.tree.WellFormed
  | .block _ body _ kind _ => ⟨kind, Statement.wellFormed_treeAll body⟩
  | .ifThen _ condition thenBranch kind =>
    ⟨kind, condition.wellFormed_tree, Statement.wellFormed_tree thenBranch⟩
  | .ifElse _ condition thenBranch _ elseBranch kind _ =>
    ⟨kind, condition.wellFormed_tree, Statement.wellFormed_tree thenBranch,
      Statement.wellFormed_tree elseBranch⟩
  | .halt _ kind => kind
  | .expression e => e.wellFormed_tree

theorem Statement.wellFormed_treeAll : ∀ statements : List Statement,
    Stmt.WellFormedAll (treeAll statements)
  | [] => trivial
  | s :: rest => ⟨Statement.wellFormed_tree s, Statement.wellFormed_treeAll rest⟩

end

/-- An `if` is open in a derivation exactly if it is open in the tree. -/
theorem Statement.isOpen_tree : ∀ s : Statement, s.tree.IsOpen ↔ s.IsOpen
  | .block _ _ _ _ _ => Iff.rfl
  | .ifThen _ _ _ _ => Iff.rfl
  | .ifElse _ _ _ _ elseBranch _ _ => Statement.isOpen_tree elseBranch
  | .halt _ _ => Iff.rfl
  | .expression _ => Iff.rfl

mutual

/-- An `else` stands with the nearest `if` in a derivation exactly if it does in the tree. -/
theorem Statement.settled_tree : ∀ s : Statement, s.tree.Settled ↔ s.NearestElse
  | .block _ body _ _ _ => Statement.settled_treeAll body
  | .ifThen _ _ thenBranch _ => Statement.settled_tree thenBranch
  | .ifElse _ _ thenBranch _ elseBranch _ _ =>
    and_congr (Statement.settled_tree thenBranch)
      (and_congr (not_congr (Statement.isOpen_tree thenBranch))
        (Statement.settled_tree elseBranch))
  | .halt _ _ => Iff.rfl
  | .expression _ => Iff.rfl

theorem Statement.settled_treeAll : ∀ statements : List Statement,
    Stmt.SettledAll (treeAll statements) ↔ NearestElseAll statements
  | [] => Iff.rfl
  | s :: rest => and_congr (Statement.settled_tree s) (Statement.settled_treeAll rest)

end

/-! ## Derivations of what is written -/

/-- The tokens derive the expression as a phrase of this kind, and every `print` in it is stopped
    where nothing of level `n` or above follows. -/
def Spelled (p : Phrase) (n : Nat) (tokens : List Token) (e : Expr) : Prop :=
  ∃ d : Derivation p, d.tokens = tokens ∧ d.tree = e ∧
    ∀ after, Stops n after → d.EachPrint StopsPrint after

namespace Spelled

variable {n : Nat} {tokens : List Token} {e : Expr}

/-- What is spelled at one level is spelled at those below. -/
theorem mono {m : Nat} {p : Phrase} (h : Spelled p n tokens e) (le : m ≤ n) :
    Spelled p m tokens e := by
  obtain ⟨d, derived, tree, prints⟩ := h
  exact ⟨d, derived, tree, fun after stops => prints after (stops.mono le)⟩

/-- An operand alone is a chain. -/
theorem chain (level : Level) (h : Spelled level.operand n tokens e) :
    Spelled (.chain level) n tokens e := by
  obtain ⟨d, rfl, rfl, prints⟩ := h
  refine ⟨.chain d .done, ?_, rfl, fun after stops => ⟨prints after stops, trivial⟩⟩
  rw [Derivation.tokens, Tail.tokens, List.append_nil]

/-- A chain is an expression. -/
theorem ofChain {level : Level} (h : Spelled (.chain level) n tokens e) :
    Spelled .assignment n tokens e := by
  have whole : Spelled (.chain .comparison) n tokens e := by
    cases level with
    | comparison => exact h
    | sum => exact chain .comparison h
    | product => exact chain .comparison (chain .sum h)
  obtain ⟨d, rfl, rfl, prints⟩ := whole
  exact ⟨.plain d, rfl, rfl, prints⟩

theorem ofUnary (h : Spelled .unary n tokens e) : Spelled .assignment n tokens e :=
  ofChain (chain .product h)

theorem unary (h : Spelled .primary n tokens e) : Spelled .unary n tokens e := by
  obtain ⟨d, rfl, rfl, prints⟩ := h
  exact ⟨.primary d, rfl, rfl, prints⟩

/-- A primary can be an operand at any level. -/
theorem operand (h : Spelled .primary n tokens e) (level : Level) :
    Spelled level.operand n tokens e := by
  have factor : Spelled (.chain .product) n tokens e := chain .product h.unary
  cases level with
  | comparison => exact chain .sum factor
  | sum => exact factor
  | product => exact h.unary

/-- In parentheses an expression is whole, whatever follows. -/
theorem group (h : Spelled .assignment 1 tokens e) (signs : Signs) (n : Nat) :
    Spelled .primary n (signs.group tokens) e := by
  obtain ⟨d, rfl, rfl, prints⟩ := h
  refine ⟨.group signs.leftParen d signs.rightParen signs.leftParen_kind signs.rightParen_kind,
    rfl, rfl, ?_⟩
  intro after _
  exact prints _ (.of_kind signs.rightParen_kind (by decide) (by decide) after)

end Spelled

/-- What is written for an expression derives it. -/
theorem spelled_write (signs : Signs) {e : Expr} (h : e.WellFormed) :
    Spelled .assignment 1 (e.write signs) e := by
  induction e with
  | assign name value ih =>
    obtain ⟨d, derived, rfl, prints⟩ := ((ih h.2).group signs 1).unary.ofUnary
    refine ⟨.assign name signs.equal d h.1 signs.equal_kind, ?_, rfl, prints⟩
    rw [Derivation.tokens, derived, Expr.write]
  | binary left op right ihLeft ihRight =>
    -- in parentheses both operands fit at any level, so the operator alone decides
    obtain ⟨level, kind⟩ := Level.exists_of_mem h.2.1
    obtain ⟨d, derived, rfl, prints⟩ := ((ihLeft h.1).group signs 4).operand level
    obtain ⟨d', derived', rfl, prints'⟩ := ((ihRight h.2.2).group signs 4).operand level
    refine Spelled.ofChain ⟨.chain d (.more op d' .done kind), ?_, rfl, ?_⟩
    · rw [Derivation.tokens, Tail.tokens, Tail.tokens, List.append_nil, derived, derived',
        Expr.write]
    · -- the operator does not go on with the left operand, which is in parentheses
      intro after stops
      have behind : Stops (level.rank + 1) ((Tail.more op d' .done kind).tokens ++ after) :=
        Tail.stops _ (stops.mono level.rank_pos)
      have low : level.rank + 1 ≤ 4 := by cases level <;> decide
      exact ⟨prints _ (behind.mono low), prints' after (stops.mono (by decide)), trivial⟩
  | input keyword =>
    exact Spelled.ofUnary (Spelled.unary ⟨.input keyword h, rfl, rfl, fun _ _ => trivial⟩)
  | literal token value =>
    exact Spelled.ofUnary (Spelled.unary ⟨.number token value h, rfl, rfl, fun _ _ => trivial⟩)
  | print keyword value ih =>
    obtain ⟨d, derived, rfl, prints⟩ := ((ih h.2).group signs 1).unary.ofUnary
    refine Spelled.ofUnary (Spelled.unary ⟨.print keyword d h.1, ?_, rfl, ?_⟩)
    · rw [Derivation.tokens, derived, Expr.write]
    · intro after stops
      exact ⟨prints after stops, stops⟩
  | unary op operand ih =>
    obtain ⟨d, derived, rfl, prints⟩ := ((ih h.2).group signs 1).unary
    refine Spelled.ofUnary ⟨.bang op d h.1, ?_, rfl, prints⟩
    rw [Derivation.tokens, derived, Expr.write]
  | var name =>
    exact Spelled.ofUnary (Spelled.unary ⟨.name name h, rfl, rfl, fun _ _ => trivial⟩)

/-- A well-formed condition can be written in parentheses. -/
theorem exists_condition_write (signs : Signs) {e : Expr} (h : e.WellFormed) :
    ∃ d : Derivation .assignment, d.tokens = signs.group (e.write signs) ∧ d.tree = e ∧
      ∀ after, Stops 1 after → d.EachPrint StopsPrint after :=
  ((spelled_write signs h).group signs 1).unary.ofUnary

mutual

/-- What is written for a statement derives it. -/
theorem exists_statement_write (signs : Signs) : ∀ {s : Stmt}, s.WellFormed →
    ∃ d : Statement, d.tokens = s.write signs ∧ d.tree = s ∧
      ∀ after, Stops 1 after → d.EachPrint StopsPrint after
  | .block brace body, h => by
    obtain ⟨statements, derived, rfl, prints⟩ := exists_statements_write signs h.2
    refine ⟨.block brace statements signs.rightBrace h.1 signs.rightBrace_kind, ?_, rfl, ?_⟩
    · rw [Statement.tokens, derived, Stmt.write]
    · intro after _
      exact prints _ (.cons signs.rightBrace_kind after)
  | .expression e, h => by
    obtain ⟨d, derived, rfl, prints⟩ := spelled_write signs h
    exact ⟨.expression d, derived, rfl, prints⟩
  | .halt keyword, h => ⟨.halt keyword h, rfl, rfl, fun _ _ => trivial⟩
  | .ifThen keyword condition thenBranch, h => by
    obtain ⟨kind, wellFormed, wellFormed'⟩ := h
    obtain ⟨d, derived, rfl, prints⟩ := exists_condition_write signs wellFormed
    obtain ⟨s, derived', rfl, prints'⟩ := exists_statement_write signs wellFormed'
    refine ⟨.ifThen keyword d s kind, ?_, rfl, ?_⟩
    · rw [Statement.tokens, derived, derived', Stmt.write]
    · intro after stops
      exact ⟨prints _ (s.stops after), prints' after stops⟩
  | .ifElse keyword condition thenBranch elseBranch, h => by
    obtain ⟨kind, wellFormed, wellFormed₁, wellFormed₂⟩ := h
    obtain ⟨d, derived, rfl, prints⟩ := exists_condition_write signs wellFormed
    obtain ⟨s₁, derived₁, rfl, prints₁⟩ := exists_statement_write signs wellFormed₁
    obtain ⟨s₂, derived₂, rfl, prints₂⟩ := exists_statement_write signs wellFormed₂
    refine ⟨.ifElse keyword d s₁ signs.elseWord s₂ kind signs.elseWord_kind, ?_, rfl, ?_⟩
    · rw [Statement.tokens, derived, derived₁, derived₂, Stmt.write]
    · intro after stops
      have stops₁ : Stops 1 (signs.elseWord :: (s₂.tokens ++ after)) :=
        .of_kind signs.elseWord_kind (by decide) (by decide) _
      exact ⟨prints _ (s₁.stops _), prints₁ _ stops₁, prints₂ after stops⟩

/-- Well-formed statements can be written one after the other. -/
theorem exists_statements_write (signs : Signs) : ∀ {body : List Stmt}, Stmt.WellFormedAll body →
    ∃ statements : List Statement, Statement.tokensAll statements = Stmt.writeAll signs body ∧
      Statement.treeAll statements = body ∧
      ∀ after, EndsStatements after → Statement.EachPrintAll StopsPrint statements after
  | [], _ => ⟨[], rfl, rfl, fun _ _ => trivial⟩
  | s :: rest, h => by
    obtain ⟨d, derived, rfl, prints⟩ := exists_statement_write signs h.1
    obtain ⟨statements, derived', rfl, prints'⟩ := exists_statements_write signs h.2
    refine ⟨d :: statements, ?_, rfl, ?_⟩
    · rw [Statement.tokensAll, derived, derived', Stmt.writeAll]
    · intro after ends
      exact ⟨prints _ (Stops.tokensAll statements ends).1, prints' after ends⟩

end

end Grammar

/-! ## The trees that are read -/

namespace Program

/-- What is written for a program is read as that program. -/
theorem ofTokens_write (signs : Signs) {p : Program} (wellFormed : p.WellFormed)
    (settled : p.Settled) : ofTokens (p.write signs) = .ok p := by
  obtain ⟨body⟩ := p
  obtain ⟨statements, derived, rfl, prints⟩ := exists_statements_write signs wellFormed
  have nearest : Statement.NearestElseAll statements :=
    (Statement.settled_treeAll statements).mp settled
  have meant : Statement.IsMeant statements :=
    (Statement.isMeant_iff statements).mpr ⟨prints [] .nil, nearest⟩
  rw [write, ← derived]
  exact ofTokens_of_isMeant meant

/-- Exactly those programs are read whose tokens are of the right kinds, and in which no `if` with
    an `else` has an open first branch.  Written with all their parts in parentheses they are read
    again, token by token. -/
theorem image_exact (p : Program) :
    ((∃ tokens, ofTokens tokens = .ok p) ↔ p.WellFormed ∧ p.Settled) ∧
      (p.WellFormed → p.Settled → ∀ signs : Signs, ofTokens (p.write signs) = .ok p) := by
  have written (wellFormed : p.WellFormed) (settled : p.Settled) (signs : Signs) :
      ofTokens (p.write signs) = .ok p := ofTokens_write signs wellFormed settled
  refine ⟨⟨?_, ?_⟩, written⟩
  · rintro ⟨tokens, read⟩
    obtain ⟨statements, rfl, meant⟩ := exists_isMeant read
    obtain rfl : p = ⟨Statement.treeAll statements⟩ :=
      Except.ok.inj (read.symm.trans (ofTokens_of_isMeant meant))
    constructor
    · exact Statement.wellFormed_treeAll statements
    · exact (Statement.settled_treeAll statements).mpr meant.2
  · rintro ⟨wellFormed, settled⟩
    exact ⟨p.write (.onLine 1), written wellFormed settled (.onLine 1)⟩

end Program

end NumScript
