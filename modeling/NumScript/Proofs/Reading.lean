/-
  Reading a derivation gives the tree that is meant.

  Where every `print` is followed by something that stops it, and every `else` stands with the
  nearest `if`, a draft that has read a derivation has the same future as one that holds its tree
  (`Derivation.program?_tree`, `Statement.program?_tree`).  The two drafts are rarely equal: behind
  `a + b` the sum is still open, and only what comes next closes it.  That it does is what `Stops`
  says, so each rule of the grammar costs one step of `program?_fill`.

  For whole programs this is `Statement.program?_program`.
-/
import NumScript.Proofs.Acceptance

namespace NumScript

open Draft Grammar

namespace Grammar

/-- What stands behind a `print` stops it. -/
abbrev StopsPrint (_ : Derivation .assignment) (after : List Token) : Prop :=
  Stops 1 after

/-! ## From derivations to trees -/

theorem Tail.stops {level : Level} (r : Tail level) {after : List Token}
    (h : Stops level.rank after) : Stops (level.rank + 1) (r.tokens ++ after) := by
  cases r with
  | done => exact h.mono (Nat.le_succ _)
  | more op operand rest kind =>
    have rank : op.kind.level = level.rank := Level.level_of_mem kind
    exact .cons (by rw [rank]; exact Nat.lt_succ_self _) (Level.ne_equal_of_mem kind) _

mutual

/-- Reading a part of an expression comes to the same as having read its tree. -/
theorem Derivation.program?_tree : ∀ {p : Phrase} (d : Derivation p) (c : Option Token)
    (holes : List Hole) (openings : List Opening) (body : List Stmt) (after : List Token),
    Hole.Looser p.bound holes → d.EachPrint StopsPrint after → Stops p.bound after →
      program? ⟨.operand ⟨c, holes⟩, openings, body⟩ (d.tokens ++ after) =
        program? ⟨.value d.tree false ⟨c, holes⟩, openings, body⟩ after
  | _, .assign target sign value target_kind sign_kind, c, holes, openings, body, after, looser,
      prints, stops => by
    rw [Derivation.tokens, List.cons_append, List.cons_append,
      program?_operand (stepOperand_identifier target_kind),
      program?_equal sign_kind looser.allowsTarget,
      value.program?_tree c (.assigned target :: holes) openings body after trivial prints stops]
    -- what stops the assignment stops its value, so both end here
    exact program?_fill _ _ false false (by simp) stops
  | _, .plain e, c, holes, openings, body, after, looser, prints, stops =>
    e.program?_tree c holes openings body after looser prints stops
  | _, @Derivation.chain level first rest, c, holes, openings, body, after, looser, prints,
      stops => by
    have bound := level.bound_operand
    rw [Derivation.tokens_chain_append,
      first.program?_tree c holes openings body _ (by rw [bound]; exact looser.mono (Nat.le_succ _))
        prints.1 (by rw [bound]; exact rest.stops stops)]
    exact rest.program?_fold c holes openings body after first.tree looser prints.2 stops
  | _, .bang op operand kind, c, holes, openings, body, after, _, prints, stops => by
    rw [Derivation.tokens, List.cons_append, program?_operand (stepOperand_bang kind)]
    show program? ⟨.operand ⟨c, .operand op :: holes⟩, openings, body⟩ _ = _
    rw [operand.program?_tree c (.operand op :: holes) openings body after (Nat.lt_succ_self 3)
      prints stops]
    exact program?_fill _ _ false false (by simp) stops
  | _, .primary e, c, holes, openings, body, after, looser, prints, stops =>
    e.program?_tree c holes openings body after looser prints stops
  | _, .group left e right left_kind right_kind, c, holes, openings, body, after, _, prints,
      stops => by
    have stopped : Stops 1 (right :: after) :=
      .of_kind right_kind (by decide) (by decide) after
    rw [Derivation.tokens_group_append]
    exact program?_group left_kind right_kind stops
      (e.program?_tree c (.group :: holes) openings body (right :: after) trivial prints stopped)
  | _, .print keyword e kind, c, holes, openings, body, after, _, prints, _ => by
    rw [Derivation.tokens, List.cons_append]
    exact program?_print kind prints.2
      (e.program?_tree c (.printed keyword :: holes) openings body after trivial prints.1 prints.2)
  | _, .input _ kind, _, _, _, _, after, _, _, _ =>
    program?_operand (stepOperand_inputWord kind) after
  | _, .number _ _ kind, _, _, _, _, after, _, _, _ =>
    program?_operand (stepOperand_number kind) after
  | _, .name _ kind, _, _, _, _, after, _, _, _ =>
    program?_operand (stepOperand_identifier kind) after

/-- Reading operators and operands behind a value comes to the same as having them all on the value,
    from the left to the right. -/
theorem Tail.program?_fold : ∀ {level : Level} (r : Tail level) (c : Option Token)
    (holes : List Hole) (openings : List Opening) (body : List Stmt) (after : List Token)
    (e : Expr), Hole.Looser level.rank holes → r.EachPrint StopsPrint after →
    Stops level.rank after →
      program? ⟨.value e false ⟨c, holes⟩, openings, body⟩ (r.tokens ++ after) =
        program? ⟨.value (r.fold e) false ⟨c, holes⟩, openings, body⟩ after
  | _, .done, _, _, _, _, _, _, _, _, _ => rfl
  | level, .more op operand rest kind, c, holes, openings, body, after, e, looser, prints,
      stops => by
    have rank : op.kind.level = level.rank := Level.level_of_mem kind
    have low : 0 < op.kind.level := Level.pos_of_mem kind
    -- the next operator of this level closes the operand, and with it what is on its left
    have stopped : Stops (op.kind.level + 1) (rest.tokens ++ after) := by
      rw [rank]; exact rest.stops stops
    have bound : level.operand.bound = op.kind.level + 1 := by rw [rank, level.bound_operand]
    rw [Tail.tokens_more_append, program?_operator e false low,
      (rank ▸ looser : Hole.Looser op.kind.level holes).closeTighter op.kind.level_le,
      operand.program?_tree c _ openings body _ (by rw [bound]; exact ⟨low, Nat.lt_succ_self _⟩)
        prints.1 (by rw [bound]; exact stopped),
      program?_fill (.right e op) _ false false (by simp) stopped]
    exact rest.program?_fold c holes openings body after _ looser prints.2 stops

end

/-- Reading a condition comes to the same as having read its tree: the first branch begins. -/
theorem Derivation.program?_condition (condition : Derivation .assignment) (keyword : Token)
    (s : Statement) (openings : List Opening) (body : List Stmt) (after : List Token)
    (kind : keyword.kind = .ifWord) (prints : condition.EachPrint StopsPrint (s.tokens ++ after)) :
    program? ⟨.statement, openings, body⟩ (keyword :: (condition.tokens ++ (s.tokens ++ after))) =
      program? ⟨.statement, .thenBranch keyword condition.tree :: openings, body⟩
        (s.tokens ++ after) := by
  obtain ⟨t, rest, tokens, begins⟩ := s.exists_first
  have stops : Stops 1 (s.tokens ++ after) := by
    rw [tokens, List.cons_append]
    exact .of_beginsStatement begins _
  rw [program?_ifWord kind,
    condition.program?_tree (some keyword) [] openings body _ trivial prints stops]
  rw [tokens, List.cons_append] at stops ⊢
  exact Draft.program?_condition false rfl _ stops

mutual

/-- Reading a statement comes to the same as having read its tree.  An `else` may follow only if it
    would not go with an `if` of the statement. -/
theorem Statement.program?_tree : ∀ (s : Statement) (openings : List Opening) (body : List Stmt)
    (after : List Token), s.EachPrint StopsPrint after → s.NearestElse → Stops 1 after →
    (s.IsOpen → NoElse after) →
      program? ⟨.statement, openings, body⟩ (s.tokens ++ after) =
        program? ⟨.finished s.tree, openings, body⟩ after
  | .block left statements right left_kind right_kind, openings, body, after, prints, nearest, _,
      _ => by
    rw [Statement.tokens_block_append, program?_leftBrace left_kind]
    exact Statement.program?_treeAll statements left [] openings body right after right_kind prints
      nearest
  | .ifThen keyword condition thenBranch kind, openings, body, after, prints, nearest, stops,
      noElse => by
    rw [Statement.tokens_ifThen_append,
      condition.program?_condition keyword thenBranch openings body after kind prints.1,
      Statement.program?_tree thenBranch _ body after prints.2 nearest stops
        fun _ => noElse trivial]
    exact program?_thenBranch (noElse trivial)
  | .ifElse keyword condition thenBranch separator elseBranch kind separator_kind, openings, body,
      after, prints, nearest, stops, noElse => by
    have stopped : Stops 1 (separator :: (elseBranch.tokens ++ after)) :=
      .of_kind separator_kind (by decide) (by decide) _
    rw [Statement.tokens_ifElse_append,
      condition.program?_condition keyword thenBranch openings body _ kind prints.1,
      -- the branch has no `if` that waits for an `else`, so this `if` gets it
      Statement.program?_tree thenBranch _ body _ prints.2.1 nearest.1 stopped
        fun isOpen => absurd isOpen nearest.2.1,
      program?_elseWord separator_kind rfl,
      Statement.program?_tree elseBranch _ body after prints.2.2 nearest.2.2 stops noElse]
    exact program?_elseBranch after
  | .halt keyword kind, openings, body, after, _, _, _, _ => program?_haltWord kind after
  | .expression e, openings, body, after, prints, _, stops, _ => by
    rw [Statement.tokens, e.program?_tokens openings body after,
      e.program?_tree none [] openings body after trivial prints stops]
    exact program?_expression false rfl stops

/-- Reading the statements of a block and its closing brace comes to the same as having read their
    trees. -/
theorem Statement.program?_treeAll : ∀ (statements : List Statement) (brace : Token)
    (inner : List Stmt) (outer : List Opening) (body : List Stmt) (right : Token)
    (rest : List Token), right.kind = .rightBrace →
    EachPrintAll StopsPrint statements (right :: rest) → NearestElseAll statements →
      program? ⟨.statement, .block brace inner :: outer, body⟩
          (tokensAll statements ++ right :: rest) =
        program? ⟨.finished (.block brace (inner.reverse ++ treeAll statements)), outer, body⟩ rest
  | [], brace, inner, outer, body, right, rest, kind, _, _ => by
    rw [treeAll, List.append_nil]
    exact program?_rightBrace kind rest
  | s :: statements, brace, inner, outer, body, right, rest, kind, prints, nearest => by
    obtain ⟨stops, noElse⟩ := Stops.tokensAll statements (.cons kind rest)
    rw [tokensAll_cons_append,
      Statement.program?_tree s _ body _ prints.1 nearest.1 stops fun _ => noElse,
      program?_finished fun t ht h => absurd h (noElse t ht)]
    show program? ⟨.statement, .block brace (s.tree :: inner) :: outer, body⟩ _ = _
    rw [Statement.program?_treeAll statements brace (s.tree :: inner) outer body right rest kind
      prints.2 nearest.2, List.reverse_cons, List.append_assoc]
    rfl

end

/-- A program is read to its tree. -/
theorem Statement.program?_program (statements : List Statement) (body : List Stmt)
    (prints : EachPrintAll StopsPrint statements []) (nearest : NearestElseAll statements) :
    program? ⟨.statement, [], body⟩ (tokensAll statements) =
      some ⟨body.reverse ++ treeAll statements⟩ := by
  induction statements generalizing body with
  | nil =>
    rw [treeAll, List.append_nil]
    rfl
  | cons s statements ih =>
    obtain ⟨stops, noElse⟩ := Stops.tokensAll statements .nil
    rw [List.append_nil] at stops noElse
    have printsFirst := prints.1
    rw [List.append_nil] at printsFirst
    rw [tokensAll, Statement.program?_tree s _ body _ printsFirst nearest.1 stops fun _ => noElse,
      program?_finished fun t ht h => absurd h (noElse t ht)]
    show program? ⟨.statement, [], s.tree :: body⟩ _ = _
    rw [ih (s.tree :: body) prints.2 nearest.2, List.reverse_cons, List.append_assoc]
    rfl

end Grammar

end NumScript
