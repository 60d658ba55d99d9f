/-
  Whatever is read is derivable.

  Tokens of which a program is made have a derivation in which every `print` is stopped by what
  follows and every `else` stands with the nearest `if` (`exists_expression`, `exists_statement`,
  `exists_program`).  The derivation is found as a reader would find it who takes the rules of the
  grammar one by one: once a part has been derived, reading on behind its tokens is reading on
  behind its tree (`Derivation.program?_tree`), so the next rule can begin there.

  The induction is on the number of tokens and, for one number, on the rules from `Primary` up to
  `Assignment`: only parentheses, `print`, `=` and `!` lead from a lower rule back to a higher one,
  and each of them takes a token.
-/
import NumScript.Proofs.Reading

namespace NumScript

open Draft Grammar

variable {c : Option Token} {holes : List Hole} {openings : List Opening} {body : List Stmt}

/-! ## Which tokens fit -/

/-- Nothing but a bare name that is not an operand is followed by an `=`. -/
theorem eq_var_of_equal {e : Expr} {g : Bool} {t : Token} {rest : List Token} {p : Program}
    (h : program? ⟨.value e g ⟨c, holes⟩, openings, body⟩ (t :: rest) = some p)
    (sign : t.kind = .equal) :
    ∃ name, e = .var name ∧ g = false ∧ Hole.allowsTarget holes = true := by
  obtain ⟨next, stepped, _⟩ := step_of_program? h
  have level : ¬ 0 < t.kind.level := by rw [sign]; decide
  simp only [step, stepValue, if_neg level, if_pos sign] at stepped
  split at stepped
  · exact ⟨_, rfl, rfl, ‹_›⟩
  · cases stepped

/-- Behind a value that may not be assigned to, no `=` stands. -/
theorem stops_of_value {e : Expr} {g : Bool} {after : List Token} {p : Program}
    (h : program? ⟨.value e g ⟨c, holes⟩, openings, body⟩ after = some p)
    (noTarget : (∃ name, e = .var name) → g = false → Hole.allowsTarget holes = false) :
    Stops 4 after := by
  intro t ht
  cases after with
  | nil => cases ht
  | cons u rest =>
    cases ht
    have low : t.kind.level ≤ 3 := t.kind.level_le
    refine ⟨by omega, ?_⟩
    intro sign
    obtain ⟨name, rfl, rfl, target⟩ := eq_var_of_equal h sign
    rw [noTarget ⟨name, rfl⟩ rfl] at target
    cases target

/-- Inside of a parenthesis an expression ends only with the closing one. -/
theorem exists_rightParen {e e' : Expr} {g : Bool} {outer : List Hole} {after : List Token}
    {p : Program} (closed : Hole.closeAll e holes = (e', some outer)) (stops : Stops 1 after)
    (h : program? ⟨.value e g ⟨c, holes⟩, openings, body⟩ after = some p) :
    ∃ right rest, after = right :: rest ∧ right.kind = .rightParen := by
  cases after with
  | nil =>
    rw [program?_nil] at h
    simp only [finish, closed] at h
    cases h
  | cons t rest =>
    obtain ⟨level, sign⟩ := stops t rfl
    have noOperator : ¬ 0 < t.kind.level := by omega
    obtain ⟨next, stepped, _⟩ := step_of_program? h
    simp only [step, stepValue, stepClose, if_neg noOperator, if_neg sign, closed] at stepped
    split at stepped
    · exact ⟨t, rest, rfl, ‹_›⟩
    · cases stepped

/-- Only what begins an expression fits where an operand is due. -/
theorem beginsExpression_of_stepOperand {context : Context} {t : Token} {focus : Focus}
    (h : stepOperand context t = .ok focus) : t.kind.beginsExpression = true := by
  unfold stepOperand at h
  split at h <;> first | (rename_i kind; rw [kind]; rfl) | cases h

/-- Where a statement may come, one begins or the innermost block ends. -/
theorem begins_of_statement {t : Token} {rest : List Token} {p : Program}
    (h : program? ⟨.statement, openings, body⟩ (t :: rest) = some p) :
    t.kind.beginsStatement = true ∨
      t.kind = .rightBrace ∧ ∃ brace inner outer, openings = .block brace inner :: outer := by
  obtain ⟨next, stepped, _⟩ := step_of_program? h
  simp only [step] at stepped
  unfold stepStatement at stepped
  split at stepped
  · rename_i kind; exact .inl (by rw [kind]; rfl)
  · rename_i kind; exact .inr ⟨kind, _, _, _, rfl⟩
  · rename_i kind; exact .inl (by rw [kind]; rfl)
  · rename_i kind; exact .inl (by rw [kind]; rfl)
  · cases operand : stepOperand ⟨none, []⟩ t with
    | ok focus =>
      exact .inl (TokenKind.beginsStatement_of_beginsExpression
        (beginsExpression_of_stepOperand operand))
    | error e => rw [operand] at stepped; cases stepped

/-- Behind a complete statement neither an operator nor an `=` stands. -/
theorem stops_of_finished {s : Stmt} {after : List Token} {p : Program}
    (h : program? ⟨.finished s, openings, body⟩ after = some p) : Stops 1 after := by
  cases after with
  | nil => exact .nil 1
  | cons t rest =>
    by_cases kind : t.kind = .elseWord
    · exact .of_kind kind (by decide) (by decide) rest
    · rw [program?_finished fun u hu h => by cases hu; exact absurd h kind] at h
      have focus : add s openings body = ⟨.statement, (add s openings body).openings,
          (add s openings body).body⟩ := by
        unfold add
        split <;> rfl
      rw [focus] at h
      rcases begins_of_statement h with begins | ⟨kind, _⟩
      · exact .of_beginsStatement begins rest
      · exact .of_kind kind (by decide) (by decide) rest

/-! ## Expressions -/

/-- The tokens begin with an assignment to a name. -/
def Assigns (tokens : List Token) : Prop :=
  ∃ name sign rest, tokens = name :: sign :: rest ∧ name.kind = .identifier ∧ sign.kind = .equal

/-- Whatever can be read where an operand is due, if it is at most `n` tokens, begins with a
    derivation of the phrase, which ends where what follows stops it.  A phrase that is no
    assignment may have to be read only where none stands. -/
def Reads (p : Phrase) (n : Nat) : Prop :=
  ∀ (holes : List Hole) {c : Option Token} {openings : List Opening} {body : List Stmt}
    {tokens : List Token} {program : Program}, tokens.length ≤ n → Hole.Looser p.bound holes →
    (p ≠ .assignment → Hole.allowsTarget holes = true → ¬ Assigns tokens) →
    program? ⟨.operand ⟨c, holes⟩, openings, body⟩ tokens = some program →
      ∃ (d : Derivation p) (after : List Token), tokens = d.tokens ++ after ∧
        d.EachPrint StopsPrint after ∧ Stops p.bound after

/-- Without tokens there is nothing to read. -/
theorem reads_zero (p : Phrase) : Reads p 0 := by
  intro holes c openings body tokens program le _ _ h
  rw [List.length_eq_zero_iff.mp (Nat.le_zero.mp le), program?_nil] at h
  cases h

/-- Whatever can be read where an operand is due begins with a primary, unless with a `!` or with an
    assignment. -/
theorem exists_primary {n : Nat} (ih : Reads .assignment n) {t : Token} {rest : List Token}
    {program : Program} (short : rest.length ≤ n) (noBang : t.kind ≠ .bang)
    (noAssign : Hole.allowsTarget holes = true → ¬ Assigns (t :: rest))
    (h : program? ⟨.operand ⟨c, holes⟩, openings, body⟩ (t :: rest) = some program) :
    ∃ (d : Derivation .primary) (after : List Token), t :: rest = d.tokens ++ after ∧
      d.EachPrint StopsPrint after ∧ Stops 4 after := by
  have begins : t.kind.beginsExpression = true := by
    obtain ⟨next, stepped, _⟩ := step_of_program? h
    simp only [step] at stepped
    cases operand : stepOperand ⟨c, holes⟩ t with
    | ok focus => exact beginsExpression_of_stepOperand operand
    | error e => rw [operand] at stepped; cases stepped
  cases kind : t.kind with
  | number value =>
    rw [program?_operand (stepOperand_number kind)] at h
    exact ⟨.number t value kind, rest, rfl, trivial, stops_of_value h (by simp)⟩
  | inputWord =>
    rw [program?_operand (stepOperand_inputWord kind)] at h
    exact ⟨.input t kind, rest, rfl, trivial, stops_of_value h (by simp)⟩
  | identifier =>
    refine ⟨.name t kind, rest, rfl, trivial, ?_⟩
    intro u hu
    have low : u.kind.level ≤ 3 := u.kind.level_le
    refine ⟨show u.kind.level < 4 by omega, ?_⟩
    intro sign
    rw [program?_operand (stepOperand_identifier kind)] at h
    cases rest with
    | nil => cases hu
    | cons v more =>
      cases hu
      obtain ⟨_, _, _, target⟩ := eq_var_of_equal h sign
      exact noAssign target ⟨t, u, more, rfl, kind, sign⟩
  | printWord =>
    rw [program?_operand (stepOperand_printWord kind)] at h
    obtain ⟨e, after, rfl, prints, stops⟩ :=
      ih (.printed t :: holes) short trivial (fun no => absurd rfl no) h
    exact ⟨.print t e kind, after, rfl, ⟨prints, stops⟩, stops.mono (by decide)⟩
  | leftParen =>
    rw [program?_operand (stepOperand_leftParen kind)] at h
    obtain ⟨e, after, rfl, prints, stops⟩ :=
      ih (.group :: holes) short trivial (fun no => absurd rfl no) h
    -- the tokens are read to the end, so the parenthesis is closed where the expression ends
    have read := (e.program?_tree c (.group :: holes) openings body after trivial prints
      stops).symm.trans h
    obtain ⟨right, rest, rfl, right_kind⟩ := exists_rightParen rfl stops read
    rw [program?_rightParen false right_kind rfl] at read
    refine ⟨.group t e right kind right_kind, rest, ?_, prints, stops_of_value read (by simp)⟩
    exact (Derivation.tokens_group_append t right e kind right_kind rest).symm
  | bang => exact absurd kind noBang
  | _ => rw [kind] at begins; cases begins

/-- An operand is a primary, or a `!` before a shorter operand. -/
theorem reads_unary {n : Nat} (ih : Reads .assignment n) (ih' : Reads .unary n) :
    Reads .unary (n + 1) := by
  intro holes c openings body tokens program le _ noAssign h
  cases tokens with
  | nil => rw [program?_nil] at h; cases h
  | cons t rest =>
    have short : rest.length ≤ n := by
      rw [List.length_cons] at le
      omega
    by_cases kind : t.kind = .bang
    · rw [program?_operand (stepOperand_bang kind)] at h
      obtain ⟨d, after, rfl, prints, stops⟩ :=
        ih' (.operand t :: holes) short (Nat.lt_succ_self 3)
          (by simp [Hole.allowsTarget]) h
      exact ⟨.bang t d kind, after, rfl, prints, stops⟩
    · obtain ⟨d, after, split, prints, stops⟩ :=
        exists_primary ih short kind (noAssign (by simp)) h
      exact ⟨.primary d, after, split, prints, stops⟩

/-- The operators of a level are taken one after the other, each with its operand, until one of
    another level or something else comes. -/
theorem exists_tail {level : Level} {n : Nat} (operands : Reads level.operand n) :
    ∀ (tokens : List Token) (e : Expr) {program : Program}, tokens.length ≤ n →
      Hole.Looser level.rank holes → Stops (level.rank + 1) tokens →
      program? ⟨.value e false ⟨c, holes⟩, openings, body⟩ tokens = some program →
        ∃ (r : Tail level) (after : List Token), tokens = r.tokens ++ after ∧
          r.EachPrint StopsPrint after ∧ Stops level.rank after
  | [], _, _, _, _, _, _ => ⟨.done, [], rfl, trivial, .nil _⟩
  | t :: rest, e, program, le, looser, stops, h => by
    obtain ⟨low, sign⟩ := stops t rfl
    -- only an operator of just this level goes on with the chain
    by_cases rank : t.kind.level = level.rank
    · have kind : t.kind ∈ level.operators := Level.mem_of_level rank
      have operator : 0 < t.kind.level := by rw [rank]; exact level.rank_pos
      have bound : level.operand.bound = t.kind.level + 1 := by rw [rank, level.bound_operand]
      have looser' : Hole.Looser level.operand.bound (.right e t :: holes) := by
        rw [bound]; exact ⟨operator, Nat.lt_succ_self _⟩
      rw [program?_operator e false operator,
        (rank ▸ looser : Hole.Looser t.kind.level holes).closeTighter t.kind.level_le] at h
      obtain ⟨d, behind, split, prints, stops'⟩ :=
        operands _ (Nat.le_of_succ_le le) looser' (by simp [Hole.allowsTarget]) h
      have stopped : Stops (t.kind.level + 1) behind := bound ▸ stops'
      have shorter : behind.length ≤ rest.length := by
        rw [split, List.length_append]
        omega
      have short : behind.length ≤ n := by
        rw [List.length_cons] at le
        omega
      rw [split, d.program?_tree c _ openings body behind looser' prints stops',
        program?_fill (.right e t) _ false false (by simp) stopped] at h
      obtain ⟨r, after, tail, prints', stops''⟩ :=
        exists_tail operands behind _ short looser (rank ▸ stopped) h
      rw [tail] at prints split
      refine ⟨.more t d r kind, after, ?_, ⟨prints, prints'⟩, stops''⟩
      rw [Tail.tokens_more_append, split]
    · exact ⟨.done, t :: rest, rfl, trivial, .cons (by omega) sign rest⟩
termination_by tokens => tokens.length
decreasing_by
  rw [List.length_cons]
  omega

/-- A chain is an operand and the tail that goes on with it. -/
theorem reads_chain {level : Level} {n : Nat} (operands : Reads level.operand n) :
    Reads (.chain level) n := by
  intro holes c openings body tokens program le looser noAssign h
  have looser' : Hole.Looser level.operand.bound holes := by
    rw [level.bound_operand]; exact looser.mono (Nat.le_succ _)
  obtain ⟨first, after, rfl, prints, stops⟩ :=
    operands holes le looser' (fun _ => noAssign (by simp)) h
  rw [first.program?_tree c holes openings body after looser' prints stops] at h
  have short : after.length ≤ n := by rw [List.length_append] at le; omega
  obtain ⟨r, after, rfl, prints', stops'⟩ :=
    exists_tail operands after _ short looser (level.bound_operand ▸ stops) h
  refine ⟨.chain first r, after, ?_, ⟨prints, prints'⟩, stops'⟩
  rw [Derivation.tokens_chain_append]

/-- An expression is an assignment, whose right side is shorter, or a chain. -/
theorem reads_assignment {n : Nat} (ih : Reads .assignment n)
    (chains : Reads (.chain .comparison) (n + 1)) : Reads .assignment (n + 1) := by
  intro holes c openings body tokens program le looser _ h
  -- two tokens decide which rule it is, though reading looks at one
  by_cases assigns : Assigns tokens
  · obtain ⟨target, sign, rest, rfl, target_kind, sign_kind⟩ := assigns
    rw [program?_operand (stepOperand_identifier target_kind),
      program?_equal sign_kind looser.allowsTarget] at h
    have short : rest.length ≤ n := by
      simp only [List.length_cons] at le
      omega
    obtain ⟨value, after, rfl, prints, stops⟩ :=
      ih (.assigned target :: holes) short trivial (fun no => absurd rfl no) h
    exact ⟨.assign target sign value target_kind sign_kind, after, rfl, prints, stops⟩
  · obtain ⟨e, after, rfl, prints, stops⟩ := chains holes le looser (fun _ _ => assigns) h
    exact ⟨.plain e, after, rfl, prints, stops⟩

/-- The two phrases that contain each other are read together, by their length. -/
theorem reads_all (n : Nat) : Reads .assignment n ∧ Reads .unary n := by
  induction n with
  | zero => exact ⟨reads_zero _, reads_zero _⟩
  | succ n ih =>
    -- one token more for the lowest rule, and the same number up to the highest
    have unary : Reads .unary (n + 1) := reads_unary ih.1 ih.2
    have factor : Reads (.chain .product) (n + 1) := reads_chain unary
    have term : Reads (.chain .sum) (n + 1) := reads_chain factor
    exact ⟨reads_assignment ih.1 (reads_chain term), unary⟩

/-- Whatever can be read where a whole expression is due begins with one. -/
theorem exists_expression (holes : List Hole) {tokens : List Token} {program : Program}
    (looser : Hole.Looser 1 holes)
    (h : program? ⟨.operand ⟨c, holes⟩, openings, body⟩ tokens = some program) :
    ∃ (d : Derivation .assignment) (after : List Token), tokens = d.tokens ++ after ∧
      d.EachPrint StopsPrint after ∧ Stops 1 after :=
  (reads_all tokens.length).1 holes (Nat.le_refl _) looser (fun no => absurd rfl no) h

/-- Whatever can be read behind an `if` begins with its condition, and behind that its first branch
    begins. -/
theorem exists_condition {keyword : Token} {tokens : List Token} {program : Program}
    (h : program? ⟨.operand ⟨some keyword, []⟩, openings, body⟩ tokens = some program) :
    ∃ (condition : Derivation .assignment) (t : Token) (rest : List Token),
      tokens = condition.tokens ++ t :: rest ∧ condition.EachPrint StopsPrint (t :: rest) ∧
      program? ⟨.statement, .thenBranch keyword condition.tree :: openings, body⟩ (t :: rest) =
        some program := by
  obtain ⟨condition, after, rfl, prints, stops⟩ := exists_expression [] trivial h
  rw [condition.program?_tree (some keyword) [] openings body after trivial prints stops] at h
  cases after with
  | nil => rw [program?_nil] at h; cases h
  | cons t rest =>
    rw [Draft.program?_condition false rfl rest stops] at h
    exact ⟨condition, t, rest, rfl, prints, h⟩

/-! ## Statements -/

/-- Outside of a block only a statement can come where one is due. -/
theorem beginsStatement_of_statement {opening : Opening} {t : Token} {rest : List Token}
    {p : Program} (noBlock : ∀ brace inner, opening ≠ .block brace inner)
    (h : program? ⟨.statement, opening :: openings, body⟩ (t :: rest) = some p) :
    t.kind.beginsStatement = true := by
  rcases begins_of_statement h with begins | ⟨_, brace, inner, outer, same⟩
  · exact begins
  · exact absurd (List.cons.inj same).1 (noBlock brace inner)

/-- Some tokens begin with a derivation of a statement that ends where what follows cannot go on
    with it. -/
def BeginsWithStatement (tokens : List Token) : Prop :=
  ∃ (s : Statement) (after : List Token), tokens = s.tokens ++ after ∧
    s.EachPrint StopsPrint after ∧ s.NearestElse ∧ Stops 1 after ∧
    (s.IsOpen → NoElse after)

/-- Whatever can be read where a statement begins, if it is at most `n` tokens, begins with a
    derivation of one. -/
def ReadsStatement (n : Nat) : Prop :=
  ∀ {t : Token} {rest : List Token} {openings : List Opening} {body : List Stmt}
    {program : Program}, rest.length < n → t.kind.beginsStatement = true →
    program? ⟨.statement, openings, body⟩ (t :: rest) = some program →
      BeginsWithStatement (t :: rest)

/-- Whatever can be read inside of a block, if it is at most `n` tokens, begins with statements and
    the brace that closes it. -/
def ReadsBlock (n : Nat) : Prop :=
  ∀ {tokens : List Token} {brace : Token} {inner : List Stmt} {outer : List Opening}
    {body : List Stmt} {program : Program}, tokens.length ≤ n →
    program? ⟨.statement, .block brace inner :: outer, body⟩ tokens = some program →
      ∃ (statements : List Statement) (right : Token) (rest : List Token),
        tokens = Statement.tokensAll statements ++ right :: rest ∧ right.kind = .rightBrace ∧
        Statement.EachPrintAll StopsPrint statements (right :: rest) ∧
        Statement.NearestElseAll statements

/-- An `if` takes the `else` behind its first branch if there is one. -/
theorem beginsWithStatement_of_ifWord {n : Nat} (ih : ReadsStatement n) {keyword : Token}
    {tokens : List Token} {program : Program} (short : tokens.length ≤ n)
    (kind : keyword.kind = .ifWord)
    (h : program? ⟨.operand ⟨some keyword, []⟩, openings, body⟩ tokens = some program) :
    BeginsWithStatement (keyword :: tokens) := by
  obtain ⟨condition, t, rest, rfl, prints, h⟩ := exists_condition h
  obtain ⟨thenBranch, after, split, prints₁, nearest₁, stops₁, noElse₁⟩ :=
    ih (by rw [List.length_append, List.length_cons] at short; omega)
      (beginsStatement_of_statement (by exact nofun) h) h
  rw [split] at prints
  rw [split, thenBranch.program?_tree _ body after prints₁ nearest₁ stops₁ noElse₁] at h
  -- an `else` that the branch has left over belongs to this `if`
  by_cases noElse : NoElse after
  · rw [program?_thenBranch noElse] at h
    refine ⟨.ifThen keyword condition thenBranch kind, after, ?_, ⟨prints, prints₁⟩, nearest₁,
      stops_of_finished h, fun _ => noElse⟩
    rw [Statement.tokens_ifThen_append, split]
  · obtain ⟨separator, more, rfl, separator_kind⟩ : ∃ separator more,
        after = separator :: more ∧ separator.kind = .elseWord := by
      cases after with
      | nil => exact absurd nofun noElse
      | cons u more =>
        refine ⟨u, more, rfl, Classical.not_not.mp fun no => noElse ?_⟩
        rintro _ ⟨⟩
        exact no
    rw [program?_elseWord separator_kind rfl] at h
    cases more with
    | nil => rw [program?_nil] at h; cases h
    | cons v more =>
      have shorter : more.length < n := by
        have := congrArg List.length split
        simp only [List.length_append, List.length_cons] at short this
        omega
      obtain ⟨elseBranch, after, split', prints₂, nearest₂, stops₂, noElse₂⟩ :=
        ih shorter (beginsStatement_of_statement (by exact nofun) h) h
      rw [split'] at prints prints₁ split
      refine ⟨.ifElse keyword condition thenBranch separator elseBranch kind separator_kind, after,
        ?_, ⟨prints, prints₁, prints₂⟩, ⟨nearest₁, fun isOpen => ?_, nearest₂⟩, stops₂, noElse₂⟩
      · rw [Statement.tokens_ifElse_append, split]
      · exact noElse₁ isOpen separator rfl separator_kind

/-- A statement is read once shorter statements and blocks are. -/
theorem readsStatement {n : Nat} (ih : ReadsStatement n) (ih' : ReadsBlock n) :
    ReadsStatement (n + 1) := by
  intro t rest openings body program short begins h
  by_cases leftBrace : t.kind = .leftBrace
  · rw [program?_leftBrace leftBrace] at h
    obtain ⟨statements, right, rest, rfl, kind, prints, nearest⟩ :=
      ih' (show rest.length ≤ n by omega) h
    rw [Statement.program?_treeAll statements t [] openings body right rest kind prints
      nearest] at h
    refine ⟨.block t statements right leftBrace kind, rest, ?_, prints, nearest,
      stops_of_finished h, nofun⟩
    rw [Statement.tokens_block_append]
  by_cases ifWord : t.kind = .ifWord
  · rw [program?_ifWord ifWord] at h
    exact beginsWithStatement_of_ifWord ih (show rest.length ≤ n by omega) ifWord h
  by_cases haltWord : t.kind = .haltWord
  · rw [program?_haltWord haltWord] at h
    exact ⟨.halt t haltWord, rest, rfl, trivial, trivial, stops_of_finished h, nofun⟩
  have rightBrace : t.kind ≠ .rightBrace := by
    intro kind
    rw [kind] at begins
    cases begins
  rw [program?_statement rest leftBrace rightBrace ifWord haltWord] at h
  obtain ⟨e, after, split, prints, stops⟩ := exists_expression [] trivial h
  exact ⟨.expression e, after, split, prints, trivial, stops, nofun⟩

/-- The statements of a block are read one by one, each shorter than what is left. -/
theorem readsBlock {n : Nat} (ih : ReadsStatement (n + 1)) (ih' : ReadsBlock n) :
    ReadsBlock (n + 1) := by
  intro tokens brace inner outer body program short h
  cases tokens with
  | nil => rw [program?_nil] at h; cases h
  | cons t rest =>
    rcases begins_of_statement h with begins | ⟨kind, _⟩
    · obtain ⟨s, after, split, prints, nearest, stops, noElse⟩ := ih short begins h
      have shorter : after.length ≤ n := by
        obtain ⟨first, more, tokens, _⟩ := s.exists_first
        have := congrArg List.length split
        simp only [tokens, List.length_append, List.length_cons] at short this
        omega
      rw [split, s.program?_tree _ body after prints nearest stops noElse,
        program?_finished fun _ _ _ => rfl] at h
      obtain ⟨statements, right, rest', split', right_kind, prints', nearest'⟩ := ih' shorter h
      rw [split'] at prints split
      refine ⟨s :: statements, right, rest', ?_, right_kind, ⟨prints, prints'⟩, nearest, nearest'⟩
      rw [split, Statement.tokensAll_cons_append]
    · exact ⟨[], t, rest, rfl, kind, trivial, trivial⟩

/-- Statements and blocks contain each other, so they are read together, by their length. -/
theorem readsStatement_readsBlock (n : Nat) : ReadsStatement n ∧ ReadsBlock n := by
  induction n with
  | zero =>
    refine ⟨fun short => absurd short (Nat.not_lt_zero _), ?_⟩
    intro tokens brace inner outer body program short h
    rw [List.length_eq_zero_iff.mp (Nat.le_zero.mp short), program?_nil] at h
    cases h
  | succ n ih =>
    have statement : ReadsStatement (n + 1) := readsStatement ih.1 ih.2
    exact ⟨statement, readsBlock statement ih.2⟩

/-- Whatever is read as a program has a derivation of one. -/
theorem exists_program {tokens : List Token} {body : List Stmt} {program : Program}
    (h : program? ⟨.statement, [], body⟩ tokens = some program) :
    ∃ statements : List Statement, tokens = Statement.tokensAll statements ∧
      Statement.EachPrintAll StopsPrint statements [] ∧ Statement.NearestElseAll statements := by
  -- on the number of tokens: every statement takes one at least
  induction hn : tokens.length using Nat.strongRecOn generalizing tokens body with
  | _ n ih =>
    cases tokens with
    | nil => exact ⟨[], rfl, trivial, trivial⟩
    | cons t rest =>
      rcases begins_of_statement h with begins | ⟨_, _, _, _, no⟩
      · obtain ⟨s, after, split, prints, nearest, stops, noElse⟩ :=
          (readsStatement_readsBlock _).1 (Nat.lt_succ_self _) begins h
        have shorter : after.length < n := by
          obtain ⟨first, more, tokens, _⟩ := s.exists_first
          have := congrArg List.length split
          simp only [tokens, List.length_append, List.length_cons] at hn this
          omega
        rw [split, s.program?_tree _ body after prints nearest stops noElse,
          program?_finished fun _ _ _ => rfl] at h
        obtain ⟨statements, rfl, prints', nearest'⟩ := ih after.length shorter h rfl
        refine ⟨s :: statements, split, ⟨?_, prints'⟩, nearest, nearest'⟩
        rw [List.append_nil]
        exact prints
      · cases no

end NumScript
