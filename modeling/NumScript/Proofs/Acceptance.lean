/-
  Every derivable list of tokens is read.

  Reading decides at every token, and never takes back, what belongs to a `print`, which operators
  are closed, and which `if` an `else` goes with.  So while it reads a derivation it may build quite
  another tree; what it cannot do is get stuck.  This needs no more than two measures of what is
  open around a place, and neither depends on the trees:

    * for an expression, what is open outside of the nearest parenthesis (`Hole.outside`): reading a
      derivation closes and opens constructs, but never beyond that parenthesis;
    * for a statement, what is open around the nearest block (`Draft.enclosing`) and how many `if`s
      inside of it can still get an `else` (`Draft.waiting`): reading a derivation leaves at least
      as many as there were, so that an `else` that the grammar allows always finds its `if`.

  The main statements are `Derivation.exists_value`, `Statement.exists_finished` and, for whole
  programs, `Statement.exists_program`.
-/
import NumScript.Proofs.Completion
import NumScript.Proofs.Grammar

namespace NumScript

/-! ## Levels -/

namespace Grammar

/-- The level of the operators as a number. -/
def Level.rank : Level → Nat
  | comparison => 1
  | sum => 2
  | product => 3

/-- What follows a phrase that has been read as far as possible stops this level. -/
def Phrase.bound : Phrase → Nat
  | assignment => 1
  | chain level => level.rank
  | unary => 4
  | primary => 4

/-- No level has rank zero, which is left to what is no operator. -/
theorem Level.rank_pos (level : Level) : 0 < level.rank := by
  cases level <;> decide

theorem Level.eq_of_rank {level level' : Level} (h : level.rank = level'.rank) :
    level = level' := by
  cases level <;> cases level' <;> simp [rank] at h ⊢

/-- Only operators that bind tighter than those of its level can go on with an operand. -/
theorem Level.bound_operand (level : Level) : level.operand.bound = level.rank + 1 := by
  cases level <;> rfl

theorem Level.operand_ne_assignment (level : Level) : level.operand ≠ .assignment := by
  cases level <;> exact nofun

/-- The rank of a level is the level of each of its operators. -/
theorem Level.level_of_mem {level : Level} {k : TokenKind} (h : k ∈ level.operators) :
    k.level = level.rank := by
  cases level <;> simp [operators] at h
  · rw [h]; rfl
  · rcases h with h | h <;> rw [h] <;> rfl
  · rcases h with h | h <;> rw [h] <;> rfl

theorem Level.pos_of_mem {level : Level} {k : TokenKind} (h : k ∈ level.operators) :
    0 < k.level := by
  rw [level_of_mem h]
  exact level.rank_pos

theorem Level.ne_equal_of_mem {level : Level} {k : TokenKind} (h : k ∈ level.operators) :
    k ≠ .equal := by
  rintro rfl
  exact absurd (pos_of_mem h) (by decide)

/-- Whatever binds as an operator does so on one of the three levels. -/
theorem Level.exists_of_level {k : TokenKind} (h : 0 < k.level) :
    ∃ level : Level, k ∈ level.operators := by
  cases k with
  | star => exact ⟨.product, by decide⟩
  | slash => exact ⟨.product, by decide⟩
  | plus => exact ⟨.sum, by decide⟩
  | minus => exact ⟨.sum, by decide⟩
  | equalEqual => exact ⟨.comparison, by decide⟩
  | _ => exact absurd h (by simp [TokenKind.level])

/-- An operator is found among those of its own rank. -/
theorem Level.mem_of_level {level : Level} {k : TokenKind} (h : k.level = level.rank) :
    k ∈ level.operators := by
  obtain ⟨level', mem⟩ := exists_of_level (k := k) (by rw [h]; exact level.rank_pos)
  have same : level' = level := eq_of_rank ((level_of_mem mem).symm.trans h)
  exact same ▸ mem

end Grammar

/-! ## First tokens -/

/-- A token of this kind can begin an expression. -/
def TokenKind.beginsExpression : TokenKind → Bool
  | .number _ | .identifier | .inputWord | .printWord | .bang | .leftParen => true
  | _ => false

/-- A token of this kind can begin a statement. -/
def TokenKind.beginsStatement : TokenKind → Bool
  | .leftBrace | .ifWord | .haltWord => true
  | k => k.beginsExpression

/-- A statement may be an expression, so it can begin with whatever an expression can begin with. -/
theorem TokenKind.beginsStatement_of_beginsExpression {k : TokenKind}
    (h : k.beginsExpression = true) : k.beginsStatement = true := by
  cases k <;> first | rfl | exact absurd h (by decide)

/-- What begins a statement goes on with no expression. -/
theorem Stops.of_beginsStatement {t : Token} (h : t.kind.beginsStatement = true)
    (rest : List Token) : Stops 1 (t :: rest) := by
  have both : t.kind.level = 0 ∧ t.kind ≠ .equal := by
    generalize t.kind = k at h
    cases k <;> first | exact absurd h (by decide) | exact ⟨rfl, nofun⟩
  exact .cons (Nat.lt_one_iff.mpr both.1) both.2 rest

namespace Grammar

/-- Every phrase has a first token, which can begin an expression. -/
theorem Derivation.exists_first : ∀ {p : Phrase} (d : Derivation p),
    ∃ t rest, d.tokens = t :: rest ∧ t.kind.beginsExpression = true
  | _, .assign target sign value kind _ => ⟨target, sign :: value.tokens, rfl, by rw [kind]; rfl⟩
  | _, .plain e => e.exists_first
  | _, .chain first rest => by
    obtain ⟨t, more, tokens, begins⟩ := first.exists_first
    exact ⟨t, more ++ rest.tokens, by rw [Derivation.tokens, tokens, List.cons_append], begins⟩
  | _, .bang op operand kind => ⟨op, operand.tokens, rfl, by rw [kind]; rfl⟩
  | _, .primary e => e.exists_first
  | _, .group left e right kind _ => ⟨left, e.tokens ++ [right], rfl, by rw [kind]; rfl⟩
  | _, .print keyword e kind => ⟨keyword, e.tokens, rfl, by rw [kind]; rfl⟩
  | _, .input keyword kind => ⟨keyword, [], rfl, by rw [kind]; rfl⟩
  | _, .number token value kind => ⟨token, [], rfl, by rw [kind]; rfl⟩
  | _, .name token kind => ⟨token, [], rfl, by rw [kind]; rfl⟩

/-- Every statement has a first token, which can begin a statement. -/
theorem Statement.exists_first (s : Statement) :
    ∃ t rest, s.tokens = t :: rest ∧ t.kind.beginsStatement = true := by
  cases s with
  | block left body right kind _ => exact ⟨left, _, rfl, by rw [kind]; rfl⟩
  | ifThen keyword condition thenBranch kind => exact ⟨keyword, _, rfl, by rw [kind]; rfl⟩
  | ifElse keyword condition thenBranch separator elseBranch kind _ =>
    exact ⟨keyword, _, rfl, by rw [kind]; rfl⟩
  | halt keyword kind => exact ⟨keyword, _, rfl, by rw [kind]; rfl⟩
  | expression e =>
    obtain ⟨t, rest, tokens, begins⟩ := e.exists_first
    exact ⟨t, rest, tokens, TokenKind.beginsStatement_of_beginsExpression begins⟩

end Grammar

/-! ## Expressions -/

namespace Hole

/-- What is open outside of the nearest parenthesis, if there is one. -/
def outside : List Hole → Option (List Hole)
  | [] => none
  | .group :: outer => some outer
  | _ :: outer => outside outer

/-- What is open outside of the parenthesis does not depend on what is closed inside. -/
theorem snd_closeAll (e : Expr) (holes : List Hole) : (closeAll e holes).2 = outside holes := by
  induction holes generalizing e with
  | nil => rfl
  | cons hole outer ih =>
    cases hole with
    | group => rfl
    | _ => exact ih _

/-- An operator closes nothing beyond the nearest parenthesis. -/
theorem outside_closeTighter (level : Nat) (e : Expr) (holes : List Hole) :
    outside (closeTighter level e holes).2 = outside holes := by
  induction holes generalizing e with
  | nil => rfl
  | cons hole outer ih =>
    cases hole with
    | operand op => exact ih _
    | right left op =>
      unfold closeTighter
      split
      · exact ih _
      · rfl
    | _ => rfl

/-- Everything is closed up to the parenthesis outside of which the rest is open. -/
theorem exists_closeAll {holes : List Hole} {outer : Option (List Hole)}
    (h : outside holes = outer) (e : Expr) : ∃ e', closeAll e holes = (e', outer) :=
  ⟨(closeAll e holes).1, Prod.ext rfl ((snd_closeAll e holes).trans h)⟩

end Hole

open Draft Grammar

mutual

/-- A derivation of a part of an expression is read, and nothing outside of the nearest parenthesis
    changes.  Only a name that is not an operand may be assigned to. -/
theorem Grammar.Derivation.exists_value : ∀ {p : Phrase} (d : Derivation p) (c : Option Token)
    (holes : List Hole) (openings : List Opening) (body : List Stmt),
    (p = .assignment → Hole.allowsTarget holes = true) →
    ∃ e g holes', Hole.outside holes' = Hole.outside holes ∧ ∀ after,
      program? ⟨.operand ⟨c, holes⟩, openings, body⟩ (d.tokens ++ after) =
        program? ⟨.value e g ⟨c, holes'⟩, openings, body⟩ after
  | _, .assign name sign value name_kind sign_kind, c, holes, openings, body, target => by
    obtain ⟨e, g, holes', outside, reads⟩ :=
      value.exists_value c (.assigned name :: holes) openings body fun _ => rfl
    refine ⟨e, g, holes', outside, ?_⟩
    intro after
    rw [Derivation.tokens, List.cons_append, List.cons_append,
      program?_operand (stepOperand_identifier name_kind), program?_equal sign_kind (target rfl)]
    exact reads after
  | _, .plain e, c, holes, openings, body, _ => e.exists_value c holes openings body nofun
  | _, @Derivation.chain level first rest, c, holes, openings, body, _ => by
    obtain ⟨e, g, holes', outside, reads⟩ := first.exists_value c holes openings body
      fun h => absurd h level.operand_ne_assignment
    obtain ⟨e', g', holes'', outside', reads'⟩ := rest.exists_value c holes' openings body e g
    refine ⟨e', g', holes'', outside'.trans outside, ?_⟩
    intro after
    rw [Derivation.tokens_chain_append, reads, reads']
  | _, .bang op operand kind, c, holes, openings, body, _ => by
    obtain ⟨e, g, holes', outside, reads⟩ :=
      operand.exists_value c (.operand op :: holes) openings body nofun
    refine ⟨e, g, holes', outside, ?_⟩
    intro after
    rw [Derivation.tokens, List.cons_append, program?_operand (stepOperand_bang kind)]
    exact reads after
  | _, .primary e, c, holes, openings, body, _ => e.exists_value c holes openings body nofun
  | _, .group left e right left_kind right_kind, c, holes, openings, body, _ => by
    obtain ⟨x, g, holes', outside, reads⟩ :=
      e.exists_value c (.group :: holes) openings body fun _ => rfl
    -- the parenthesis is still the nearest one, so its closing one finds it
    obtain ⟨x', closed⟩ := Hole.exists_closeAll outside x
    refine ⟨x', true, holes, rfl, ?_⟩
    intro after
    rw [Derivation.tokens_group_append, program?_operand (stepOperand_leftParen left_kind)]
    exact (reads _).trans (program?_rightParen g right_kind closed after)
  | _, .print keyword e kind, c, holes, openings, body, _ => by
    obtain ⟨x, g, holes', outside, reads⟩ :=
      e.exists_value c (.printed keyword :: holes) openings body fun _ => rfl
    refine ⟨x, g, holes', outside, ?_⟩
    intro after
    rw [Derivation.tokens, List.cons_append, program?_operand (stepOperand_printWord kind)]
    exact reads after
  | _, .input keyword kind, c, holes, openings, body, _ =>
    ⟨_, _, holes, rfl, fun after => program?_operand (stepOperand_inputWord kind) after⟩
  | _, .number token value kind, c, holes, openings, body, _ =>
    ⟨_, _, holes, rfl, fun after => program?_operand (stepOperand_number kind) after⟩
  | _, .name token kind, c, holes, openings, body, _ =>
    ⟨_, _, holes, rfl, fun after => program?_operand (stepOperand_identifier kind) after⟩

/-- The operators behind an operand, and what they stand before, are read. -/
theorem Grammar.Tail.exists_value : ∀ {level : Level} (r : Tail level) (c : Option Token)
    (holes : List Hole) (openings : List Opening) (body : List Stmt) (e : Expr) (g : Bool),
    ∃ e' g' holes', Hole.outside holes' = Hole.outside holes ∧ ∀ after,
      program? ⟨.value e g ⟨c, holes⟩, openings, body⟩ (r.tokens ++ after) =
        program? ⟨.value e' g' ⟨c, holes'⟩, openings, body⟩ after
  | _, .done, _, holes, _, _, e, g => ⟨e, g, holes, rfl, fun _ => rfl⟩
  | level, .more op operand rest kind, c, holes, openings, body, e, g => by
    have operator : 0 < op.kind.level := Level.pos_of_mem kind
    -- the operator closes what is tighter, but no parenthesis
    obtain ⟨x, g', holes', outside, reads⟩ := operand.exists_value c
      (.right (Hole.closeTighter op.kind.level e holes).1 op ::
        (Hole.closeTighter op.kind.level e holes).2) openings body
      fun h => absurd h level.operand_ne_assignment
    obtain ⟨e', g'', holes'', outside', reads'⟩ := rest.exists_value c holes' openings body x g'
    refine ⟨e', g'', holes'', ?_, fun after => ?_⟩
    · exact (outside'.trans outside).trans (Hole.outside_closeTighter _ e holes)
    · rw [Tail.tokens_more_append, program?_operator e g operator,
        reads, reads']

end

/-- Behind a whole expression everything can be closed up to the nearest parenthesis. -/
theorem Grammar.Derivation.exists_closed (e : Derivation .assignment) (c : Option Token)
    (holes : List Hole) (openings : List Opening) (body : List Stmt)
    (target : Hole.allowsTarget holes = true) :
    ∃ x x' g holes', Hole.closeAll x holes' = (x', Hole.outside holes) ∧ ∀ after,
      program? ⟨.operand ⟨c, holes⟩, openings, body⟩ (e.tokens ++ after) =
        program? ⟨.value x g ⟨c, holes'⟩, openings, body⟩ after := by
  obtain ⟨x, g, holes', outside, reads⟩ := e.exists_value c holes openings body fun _ => target
  obtain ⟨x', closed⟩ := Hole.exists_closeAll outside x
  exact ⟨x, x', g, holes', closed, reads⟩

/-! ## Statements -/

namespace Draft

/-- What is open around the nearest block, that block included. -/
def enclosing : List Opening → List Opening
  | .thenBranch _ _ :: outer => enclosing outer
  | .elseBranch _ _ _ :: outer => enclosing outer
  | openings => openings

/-- How many `if`s inside of the nearest block can still get an `else`. -/
def waiting : List Opening → Nat
  | .thenBranch _ _ :: outer => waiting outer + 1
  | .elseBranch _ _ _ :: outer => waiting outer
  | _ => 0

/-- Complete `if`s are closed up to the nearest block. -/
theorem snd_closeIfs (s : Stmt) (openings : List Opening) :
    (closeIfs s openings).2 = enclosing openings := by
  induction openings generalizing s with
  | nil => rfl
  | cons opening outer ih =>
    cases opening with
    | block brace inner => rfl
    | _ => exact ih _

/-- An `if` that waits for an `else` gets the next one. -/
theorem exists_attachElse {openings : List Opening} (s : Stmt) (h : 0 < waiting openings) :
    ∃ openings', attachElse? s openings = some openings' ∧
      enclosing openings' = enclosing openings ∧ waiting openings' + 1 = waiting openings := by
  induction openings generalizing s with
  | nil => exact absurd h (Nat.lt_irrefl 0)
  | cons opening outer ih =>
    cases opening with
    | thenBranch keyword condition =>
      exact ⟨.elseBranch keyword condition s :: outer, rfl, rfl, rfl⟩
    | elseBranch keyword condition first => exact ih (.ifElse keyword condition first s) h
    | block brace inner => exact absurd h (Nat.lt_irrefl 0)

/-- Inside a block, a complete statement is added to the block. -/
theorem exists_add_of_block {openings outer : List Opening} {brace : Token} {inner : List Stmt}
    (h : enclosing openings = .block brace inner :: outer) (s : Stmt) (body : List Stmt) :
    ∃ s', add s openings body = ⟨.statement, .block brace (s' :: inner) :: outer, body⟩ := by
  have closed : closeIfs s openings = ((closeIfs s openings).1, .block brace inner :: outer) :=
    Prod.ext rfl ((snd_closeIfs s openings).trans h)
  exact ⟨(closeIfs s openings).1, by rw [add, closed]⟩

/-- Outside of all blocks, a complete statement is added to the program. -/
theorem exists_add_of_nil {openings : List Opening} (h : enclosing openings = []) (s : Stmt)
    (body : List Stmt) : ∃ s', add s openings body = ⟨.statement, [], s' :: body⟩ := by
  have closed : closeIfs s openings = ((closeIfs s openings).1, []) :=
    Prod.ext rfl ((snd_closeIfs s openings).trans h)
  exact ⟨(closeIfs s openings).1, by rw [add, closed]⟩

end Draft

/-- Where a statement may begin, an expression is read as it would be anywhere else. -/
theorem Grammar.Derivation.program?_tokens {p : Phrase} (e : Derivation p)
    (openings : List Opening) (body : List Stmt) (after : List Token) :
    program? ⟨.statement, openings, body⟩ (e.tokens ++ after) =
      program? ⟨.operand ⟨none, []⟩, openings, body⟩ (e.tokens ++ after) := by
  obtain ⟨t, rest, tokens, begins⟩ := e.exists_first
  rw [tokens, List.cons_append]
  apply program?_statement <;> intro kind <;> rw [kind] at begins <;> cases begins

/-- What stands behind a statement of a list: the next one, or what the list ends with. -/
theorem Stops.tokensAll (statements : List Statement) {after : List Token}
    (h : EndsStatements after) :
    Stops 1 (Statement.tokensAll statements ++ after) ∧
      NoElse (Statement.tokensAll statements ++ after) := by
  cases statements with
  | nil => exact ⟨h.stops, h.noElse⟩
  | cons s rest =>
    obtain ⟨t, more, tokens, begins⟩ := s.exists_first
    rw [Statement.tokensAll, tokens]
    refine ⟨.of_beginsStatement begins _, ?_⟩
    rintro _ ⟨⟩ kind
    rw [kind] at begins
    cases begins

/-- A condition is read, and the first branch of its `if` begins behind it. -/
theorem exists_thenBranch (keyword : Token) (condition : Derivation .assignment)
    (openings : List Opening) (body : List Stmt) (kind : keyword.kind = .ifWord) :
    ∃ e, ∀ (s : Statement) (after : List Token),
      program? ⟨.statement, openings, body⟩ (keyword :: (condition.tokens ++ (s.tokens ++ after))) =
        program? ⟨.statement, .thenBranch keyword e :: openings, body⟩ (s.tokens ++ after) := by
  obtain ⟨e, e', g, holes, closed, reads⟩ :=
    condition.exists_closed (some keyword) [] openings body rfl
  refine ⟨e', ?_⟩
  intro s after
  obtain ⟨t, rest, tokens, begins⟩ := s.exists_first
  rw [program?_ifWord kind, reads, tokens, List.cons_append]
  exact program?_condition g closed _ (.of_beginsStatement begins _)

mutual

/-- A derivation of a statement is read.  Around the nearest block nothing changes, and no fewer
    `if`s wait for an `else` than before. -/
theorem Grammar.Statement.exists_finished : ∀ (s : Statement) (openings : List Opening)
    (body : List Stmt), ∃ tree openings', enclosing openings' = enclosing openings ∧
      waiting openings ≤ waiting openings' ∧ ∀ after, Stops 1 after →
        program? ⟨.statement, openings, body⟩ (s.tokens ++ after) =
          program? ⟨.finished tree, openings', body⟩ after
  | .block left statements right left_kind right_kind, openings, body => by
    obtain ⟨inner, reads⟩ := Statement.exists_block statements left [] openings body
    refine ⟨.block left inner, openings, rfl, Nat.le_refl _, ?_⟩
    intro after _
    rw [Statement.tokens_block_append, program?_leftBrace left_kind]
    exact reads right after right_kind
  | .ifThen keyword condition thenBranch kind, openings, body => by
    obtain ⟨e, begins⟩ := exists_thenBranch keyword condition openings body kind
    obtain ⟨tree, openings', enclosing, more, reads⟩ :=
      Statement.exists_finished thenBranch (.thenBranch keyword e :: openings) body
    have noFewer : waiting openings + 1 ≤ waiting openings' := more
    refine ⟨tree, openings', enclosing, by omega, ?_⟩
    intro after stops
    rw [Statement.tokens_ifThen_append, begins, reads after stops]
  | .ifElse keyword condition thenBranch separator elseBranch kind separator_kind, openings,
      body => by
    obtain ⟨e, begins⟩ := exists_thenBranch keyword condition openings body kind
    obtain ⟨first, openings₁, enclosing₁, more, reads₁⟩ :=
      Statement.exists_finished thenBranch (.thenBranch keyword e :: openings) body
    have waiting₁ : waiting openings + 1 ≤ waiting openings₁ := more
    -- the `else` goes with some `if` that waits for one, though maybe not with this one
    obtain ⟨openings₂, attached, enclosing₂, waiting₂⟩ :=
      exists_attachElse first (show 0 < waiting openings₁ by omega)
    obtain ⟨second, openings₃, enclosing₃, waiting₃, reads₃⟩ :=
      Statement.exists_finished elseBranch openings₂ body
    refine ⟨second, openings₃, enclosing₃.trans (enclosing₂.trans enclosing₁), by omega, ?_⟩
    intro after stops
    have stops₁ : Stops 1 (separator :: (elseBranch.tokens ++ after)) :=
      .of_kind separator_kind (by decide) (by decide) _
    rw [Statement.tokens_ifElse_append, begins, reads₁ _ stops₁,
      program?_elseWord separator_kind attached, reads₃ after stops]
  | .halt keyword kind, openings, body =>
    ⟨.halt keyword, openings, rfl, Nat.le_refl _, fun after _ => program?_haltWord kind after⟩
  | .expression e, openings, body => by
    obtain ⟨x, x', g, holes, closed, reads⟩ := e.exists_closed none [] openings body rfl
    refine ⟨.expression x', openings, rfl, Nat.le_refl _, ?_⟩
    intro after stops
    rw [← program?_expression g closed stops, ← reads after]
    exact e.program?_tokens openings body after

/-- The statements of a block and its closing brace are read. -/
theorem Grammar.Statement.exists_block : ∀ (statements : List Statement) (brace : Token)
    (inner : List Stmt) (outer : List Opening) (body : List Stmt), ∃ inner',
      ∀ right rest, right.kind = .rightBrace →
        program? ⟨.statement, .block brace inner :: outer, body⟩
            (Statement.tokensAll statements ++ right :: rest) =
          program? ⟨.finished (.block brace inner'), outer, body⟩ rest
  | [], _, inner, _, _ => ⟨inner.reverse, fun _ rest kind => program?_rightBrace kind rest⟩
  | s :: statements, brace, inner, outer, body => by
    obtain ⟨tree, openings, enclosing, _, reads⟩ :=
      Statement.exists_finished s (.block brace inner :: outer) body
    -- the `if`s that still wait are closed with the statement, up to the block
    obtain ⟨tree', added⟩ := exists_add_of_block enclosing tree body
    obtain ⟨inner', reads'⟩ :=
      Statement.exists_block statements brace (tree' :: inner) outer body
    refine ⟨inner', ?_⟩
    intro right rest kind
    obtain ⟨stops, noElse⟩ := Stops.tokensAll statements (.cons kind rest)
    rw [Statement.tokensAll_cons_append, reads _ stops,
      program?_finished fun t ht h => absurd h (noElse t ht), added, reads' right rest kind]

end

/-- Every derivation of a program is read. -/
theorem Grammar.Statement.exists_program (statements : List Statement) (body : List Stmt) :
    ∃ p, program? ⟨.statement, [], body⟩ (Statement.tokensAll statements) = some p := by
  induction statements generalizing body with
  | nil => exact ⟨_, rfl⟩
  | cons s statements ih =>
    obtain ⟨tree, openings, enclosing, _, reads⟩ := Statement.exists_finished s [] body
    obtain ⟨tree', added⟩ := exists_add_of_nil enclosing tree body
    obtain ⟨p, reads'⟩ := ih (tree' :: body)
    obtain ⟨stops, noElse⟩ := Stops.tokensAll statements .nil
    rw [List.append_nil] at stops noElse
    refine ⟨p, ?_⟩
    rw [Statement.tokensAll, reads _ stops,
      program?_finished fun t ht h => absurd h (noElse t ht), added, reads']

end NumScript
