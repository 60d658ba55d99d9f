/-
  What is read is what the grammar derives.

  The parts are in place: every derivation is read (`Statement.exists_program`), whatever is read
  has a derivation in which the next token stops every `print` (`exists_program`), such a
  derivation is read to its tree (`Statement.program?_program`) and is determined by its tokens
  (`Statement.uniqueAll`), and it is the one that is meant (`Statement.eachPrintAll_iff`).  Here
  they are put together for whole lists of tokens:

    * `Program.exists_ofTokens_iff`: a list of tokens is read without error exactly if it can be
      derived, by any derivation;
    * `Program.exists_isMeant` and `Program.ofTokens_of_isMeant`: then it also has a derivation that
      is meant, and the program is the tree of that one;
    * `Cursor.program_exact`: all of it at once, and that no token is left.
-/
import NumScript.Proofs.MeantDerivation

namespace NumScript

open Draft Grammar

/-! ## Derivations that are meant -/

namespace Grammar.Statement

/-- In the derivation that is meant the next token stops every `print`. -/
theorem isMeant_iff (statements : List Statement) :
    IsMeant statements ↔
      EachPrintAll StopsPrint statements [] ∧ NearestElseAll statements := by
  have prints := eachPrintAll_iff statements [] .nil
  constructor
  · rintro ⟨longest, nearest⟩
    exact ⟨prints.mp longest, nearest⟩
  · rintro ⟨stopped, nearest⟩
    exact ⟨prints.mpr stopped, nearest⟩

/-- Only one derivation of a list of tokens is meant. -/
theorem eq_of_isMeant {statements statements' : List Statement} (h : IsMeant statements)
    (h' : IsMeant statements') (same : tokensAll statements = tokensAll statements') :
    statements = statements' := by
  obtain ⟨prints, nearest⟩ := (isMeant_iff statements).mp h
  obtain ⟨prints', nearest'⟩ := (isMeant_iff statements').mp h'
  have behind : tokensAll statements ++ [] = tokensAll statements' ++ [] := by rw [same]
  exact (uniqueAll statements statements' behind prints prints' nearest nearest' .nil .nil).1

end Grammar.Statement

/-! ## Whole lists of tokens -/

namespace Program

/-- The derivation that is meant is read to its tree. -/
theorem ofTokens_of_isMeant {statements : List Statement} (h : Statement.IsMeant statements) :
    ofTokens (Statement.tokensAll statements) = .ok ⟨Statement.treeAll statements⟩ := by
  obtain ⟨prints, nearest⟩ := (Statement.isMeant_iff statements).mp h
  exact ofTokens_eq_ok_iff.mpr (Statement.program?_program statements [] prints nearest)

/-- Whatever is read has a derivation that is meant. -/
theorem exists_isMeant {tokens : List Token} {program : Program}
    (h : ofTokens tokens = .ok program) :
    ∃ statements, Statement.tokensAll statements = tokens ∧ Statement.IsMeant statements := by
  obtain ⟨statements, rfl, prints, nearest⟩ := exists_program (ofTokens_eq_ok_iff.mp h)
  exact ⟨statements, rfl, (Statement.isMeant_iff statements).mpr ⟨prints, nearest⟩⟩

/-- Whatever is read is the tree of a derivation that is meant. -/
theorem exists_isMeant_tree {tokens : List Token} {program : Program}
    (h : ofTokens tokens = .ok program) : ∃ statements, Statement.tokensAll statements = tokens ∧
      Statement.IsMeant statements ∧ program = ⟨Statement.treeAll statements⟩ := by
  obtain ⟨statements, rfl, meant⟩ := exists_isMeant h
  exact ⟨statements, rfl, meant, Except.ok.inj (h.symm.trans (ofTokens_of_isMeant meant))⟩

/-- A list of tokens makes a program exactly if it can be derived. -/
theorem exists_ofTokens_iff (tokens : List Token) :
    (∃ program, ofTokens tokens = .ok program) ↔
      ∃ statements, Statement.tokensAll statements = tokens := by
  constructor
  · rintro ⟨program, h⟩
    obtain ⟨statements, derived, _⟩ := exists_isMeant h
    exact ⟨statements, derived⟩
  · rintro ⟨statements, rfl⟩
    -- the derivation at hand need not be the one that is meant, and what is read not its tree
    obtain ⟨program, h⟩ := Statement.exists_program statements []
    exact ⟨program, ofTokens_eq_ok_iff.mpr h⟩

end Program

namespace Cursor

/-- Reading succeeds only at the end of the tokens. -/
theorem rest_of_readFrom {d : Draft} {line : Nat} {tokens : List Token} {program : Program}
    (h : (readFrom d line tokens).1 = .ok program) : (readFrom d line tokens).2.rest = [] := by
  induction tokens generalizing d line with
  | nil => rfl
  | cons t rest ih =>
    unfold readFrom at h ⊢
    cases stepped : d.step t with
    | ok next =>
      rw [stepped] at h
      exact ih h
    | error e =>
      rw [stepped] at h
      cases h

/-- Reading is exact.  A list of tokens is read as a program exactly if it can be derived from
    `Program`; then all its tokens are read, one derivation of it is meant, and the program is the
    tree of that one. -/
theorem program_exact (tokens : List Token) :
    ((∃ p, (program ⟨tokens, 1⟩).1 = .ok p) ↔
      ∃ statements, Statement.tokensAll statements = tokens) ∧
    ∀ p, (program ⟨tokens, 1⟩).1 = .ok p →
      (program ⟨tokens, 1⟩).2.rest = [] ∧
      ∃ statements, (Statement.tokensAll statements = tokens ∧ Statement.IsMeant statements) ∧
        (∀ other, Statement.tokensAll other = tokens ∧ Statement.IsMeant other →
          other = statements) ∧
        p = ⟨Statement.treeAll statements⟩ := by
  refine ⟨Program.exists_ofTokens_iff tokens, fun p h => ⟨rest_of_readFrom h, ?_⟩⟩
  obtain ⟨statements, rfl, meant⟩ := Program.exists_isMeant h
  refine ⟨statements, ⟨rfl, meant⟩, ?_, ?_⟩
  · rintro other ⟨same, otherMeant⟩
    exact Statement.eq_of_isMeant otherMeant meant same
  · have read : Except.ok p = Except.ok ⟨Statement.treeAll statements⟩ :=
      h.symm.trans (Program.ofTokens_of_isMeant meant)
    exact Except.ok.inj read

-- Two `if`s and one `else`, and a sum behind a `print`: each goes to the nearer of two places.
example : (program ⟨[⟨.ifWord, "if", 1⟩, ⟨.identifier, "a", 1⟩, ⟨.ifWord, "if", 1⟩,
      ⟨.identifier, "b", 1⟩, ⟨.printWord, "print", 1⟩, ⟨.identifier, "c", 1⟩, ⟨.plus, "+", 1⟩,
      ⟨.identifier, "d", 1⟩, ⟨.elseWord, "else", 2⟩, ⟨.haltWord, "halt", 2⟩], 1⟩).1 =
    .ok ⟨[.ifThen ⟨.ifWord, "if", 1⟩ (.var ⟨.identifier, "a", 1⟩)
      (.ifElse ⟨.ifWord, "if", 1⟩ (.var ⟨.identifier, "b", 1⟩)
        (.expression (.print ⟨.printWord, "print", 1⟩
          (.binary (.var ⟨.identifier, "c", 1⟩) ⟨.plus, "+", 1⟩ (.var ⟨.identifier, "d", 1⟩))))
        (.halt ⟨.haltWord, "halt", 2⟩))]⟩ :=
  rfl

end Cursor

end NumScript
