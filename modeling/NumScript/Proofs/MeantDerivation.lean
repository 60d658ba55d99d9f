/-
  The derivation that is meant.

  Which derivation of a program is meant is said by looking ahead: no expression that begins where a
  `print` begins to write reaches further (`Derivation.IsLongest`).  Whoever reads knows only the
  next token.  The two agree, since in a derivation every operator is followed by an operand: a
  `print` in front of an operator could always have taken that operand too
  (`isLongest_iff_stops`).

  With the one in the place of the other, a derivation that is meant can be recovered from its
  tokens, rule by rule and from the left to the right; so there is only one (`Derivation.unique`,
  `Statement.unique`, `Statement.uniqueAll`).
-/
import NumScript.Proofs.Derivability

namespace NumScript

open Draft Grammar

/-! ## Looking ahead and the next token -/

section Longer

variable {e longer : Derivation .assignment} {t : Token} {more : List Token}

/-- Inside of a parenthesis, what goes on behind an expression is the closing one, if it is neither
    an operator nor an `=`. -/
theorem rightParen_of_longer (tokens : longer.tokens = e.tokens ++ t :: more)
    (stops : ∀ behind, Stops 1 (t :: behind)) : t.kind = .rightParen := by
  obtain ⟨x, x', g, holes, closed, reads⟩ := longer.exists_closed none [.group] [] [] rfl
  obtain ⟨p, whole⟩ : ∃ p, program? ⟨.operand ⟨none, [.group]⟩, [], []⟩
      (longer.tokens ++ [⟨.rightParen, ")", 1⟩]) = some p :=
    ⟨_, (reads _).trans (program?_rightParen g rfl closed [])⟩
  obtain ⟨y, y', g', holes', closed', reads'⟩ := e.exists_closed none [.group] [] [] rfl
  rw [tokens, List.append_assoc, reads'] at whole
  obtain ⟨right, behind, split, kind⟩ := exists_rightParen closed' (stops _) whole
  exact (List.cons.inj split).1 ▸ kind

/-- Outside of parentheses it is never a closing one. -/
theorem not_rightParen_of_longer (tokens : longer.tokens = e.tokens ++ t :: more) :
    t.kind ≠ .rightParen := by
  intro right
  obtain ⟨x, x', g, holes, closed, reads⟩ := longer.exists_closed none [] [] [] rfl
  obtain ⟨p, whole⟩ : ∃ p, program? ⟨.operand ⟨none, []⟩, [], []⟩ (longer.tokens ++ []) = some p :=
    ⟨_, (reads []).trans (program?_expression g closed (.nil 1))⟩
  obtain ⟨y, y', g', holes', closed', reads'⟩ := e.exists_closed none [] [] [] rfl
  have stops : Stops 1 (t :: more) := .of_kind right (by decide) (by decide) more
  have noElse : NoElse (t :: more) := by
    rintro _ ⟨⟩
    rw [right]
    decide
  rw [List.append_nil, tokens, reads', program?_expression g' closed' stops,
    program?_finished fun u hu kind => absurd kind (noElse u hu)] at whole
  rcases begins_of_statement whole with begins | ⟨kind, _⟩
  · rw [right] at begins
    cases begins
  · rw [right] at kind
    cases kind

end Longer

/-- An expression that is followed by something that stops it could not have been longer. -/
theorem isLongest_of_stops (e : Derivation .assignment) {after : List Token}
    (stops : Stops 1 after) : e.IsLongest after := by
  intro longer rest same
  rcases List.append_eq_append_iff.mp same with ⟨more, tokens, _⟩ | ⟨more, tokens, rfl⟩
  · rw [tokens, List.length_append]
    exact Nat.le_add_right _ _
  cases more with
  | nil => exact Nat.le_of_eq (by rw [tokens, List.append_nil])
  | cons t more =>
    -- the longer one would go on with the same token inside and outside of a parenthesis
    have stopped (behind : List Token) : Stops 1 (t :: behind) :=
      .cons (stops t rfl).1 (stops t rfl).2 behind
    exact absurd (rightParen_of_longer tokens stopped) (not_rightParen_of_longer tokens)

/-- Nothing here is assigned to, and an operator is followed by an operand. -/
def Continues (after : List Token) : Prop :=
  ∀ t rest, after = t :: rest → t.kind ≠ .equal ∧ ∀ level : Level, t.kind ∈ level.operators →
    ∃ (d : Derivation level.operand) (more : List Token), rest = d.tokens ++ more

/-- What stops an expression is neither an `=` nor an operator. -/
theorem Continues.of_stops {after : List Token} (stops : Stops 1 after) : Continues after := by
  rintro t rest rfl
  obtain ⟨low, sign⟩ := stops t rfl
  refine ⟨sign, ?_⟩
  intro level kind
  have operator := Level.pos_of_mem kind
  omega

/-- An operator is one of a single level. -/
theorem Level.eq_of_mem {level level' : Level} {k : TokenKind} (h : k ∈ level.operators)
    (h' : k ∈ level'.operators) : level = level' :=
  Level.eq_of_rank ((Level.level_of_mem h).symm.trans (Level.level_of_mem h'))

/-- In front of a tail the same goes on. -/
theorem Continues.tail {level : Level} (r : Tail level) {after : List Token}
    (h : Continues after) : Continues (r.tokens ++ after) := by
  cases r with
  | done => exact h
  | more op operand rest kind =>
    rintro t behind same
    rw [Tail.tokens_more_append] at same
    obtain ⟨rfl, rfl⟩ := List.cons.inj same
    refine ⟨Level.ne_equal_of_mem kind, ?_⟩
    intro level' kind'
    obtain rfl := Level.eq_of_mem kind kind'
    exact ⟨operand, _, rfl⟩

/-- An expression is read with operators and operands behind it. -/
theorem exists_program?_of_tail (e : Derivation .assignment) {level : Level} (r : Tail level) :
    ∃ p, program? ⟨.operand ⟨none, []⟩, [], []⟩ (e.tokens ++ r.tokens) = some p := by
  obtain ⟨x, g, holes, outside, reads⟩ := e.exists_value none [] [] [] fun _ => rfl
  obtain ⟨x', g', holes', outside', reads'⟩ := r.exists_value none holes [] [] x g
  obtain ⟨x'', closed⟩ := Hole.exists_closeAll (outside'.trans outside) x'
  have whole := (reads _).trans (reads' [])
  rw [List.append_nil, program?_expression g' closed (.nil 1)] at whole
  exact ⟨_, whole⟩

/-- What `print` writes is as long as it can be where the next token stops it, and only there. -/
theorem isLongest_iff_stops (e : Derivation .assignment) {after : List Token}
    (h : Continues after) : e.IsLongest after ↔ StopsPrint e after := by
  refine ⟨?_, isLongest_of_stops e⟩
  intro longest t ht
  obtain ⟨rest, rfl⟩ : ∃ rest, after = t :: rest := by
    cases after with
    | nil => cases ht
    | cons u rest => cases ht; exact ⟨rest, rfl⟩
  obtain ⟨sign, operands⟩ := h t rest rfl
  refine ⟨Nat.lt_of_not_le ?_, sign⟩
  intro operator
  obtain ⟨level, kind⟩ := Level.exists_of_level operator
  obtain ⟨d, more, rfl⟩ := operands level kind
  -- the expression could have been continued by the operator and its operand
  let r : Tail level := .more t d .done kind
  have tail : t :: (d.tokens ++ more) = r.tokens ++ more := by
    rw [Tail.tokens, Tail.tokens, List.append_nil, List.cons_append]
  obtain ⟨p, whole⟩ := exists_program?_of_tail e r
  obtain ⟨e', after, split, _, stops⟩ := exists_expression [] trivial whole
  have short : e'.tokens.length ≤ e.tokens.length := by
    refine longest e' (after ++ more) ?_
    rw [tail, ← List.append_assoc, ← split, List.append_assoc]
  have long : e.tokens.length ≤ e'.tokens.length := isLongest_of_stops e' stops e r.tokens split
  have same : e.tokens.length = e'.tokens.length := by omega
  have behind : r.tokens = after := (List.append_inj split same).2
  have stopped : t.kind.level < 1 := (stops t (by rw [← behind]; rfl)).1
  omega

namespace Grammar

mutual

/-- Every `print` of a derivation writes as much as it can exactly if every one is stopped by the
    token behind it. -/
theorem Derivation.eachPrint_iff : ∀ {p : Phrase} (d : Derivation p) (after : List Token),
    Continues after → (d.EachPrint Derivation.IsLongest after ↔ d.EachPrint StopsPrint after)
  | _, .assign _ _ value _ _, after, h => value.eachPrint_iff after h
  | _, .plain e, after, h => e.eachPrint_iff after h
  | _, .chain first rest, after, h =>
    and_congr (first.eachPrint_iff _ (h.tail rest)) (rest.eachPrint_iff after h)
  | _, .bang _ operand _, after, h => operand.eachPrint_iff after h
  | _, .primary e, after, h => e.eachPrint_iff after h
  | _, .group _ e right _ right_kind, after, _ =>
    e.eachPrint_iff (right :: after)
      (.of_stops (.of_kind right_kind (by decide) (by decide) after))
  | _, .print _ e _, after, h => and_congr (e.eachPrint_iff after h) (isLongest_iff_stops e h)
  | _, .input _ _, _, _ => Iff.rfl
  | _, .number _ _ _, _, _ => Iff.rfl
  | _, .name _ _, _, _ => Iff.rfl

theorem Tail.eachPrint_iff : ∀ {level : Level} (r : Tail level) (after : List Token),
    Continues after → (r.EachPrint Derivation.IsLongest after ↔ r.EachPrint StopsPrint after)
  | _, .done, _, _ => Iff.rfl
  | _, .more _ operand rest _, after, h =>
    and_congr (operand.eachPrint_iff _ (h.tail rest)) (rest.eachPrint_iff after h)

end

/-- The tokens of a statement stop whatever stands before them. -/
theorem Statement.stops (s : Statement) (after : List Token) : Stops 1 (s.tokens ++ after) := by
  obtain ⟨t, rest, tokens, begins⟩ := s.exists_first
  rw [tokens, List.cons_append]
  exact .of_beginsStatement begins _

mutual

/-- In a statement that is stopped the two conditions on a `print` are the same. -/
theorem Statement.eachPrint_iff : ∀ (s : Statement) (after : List Token), Stops 1 after →
    (s.EachPrint Derivation.IsLongest after ↔ s.EachPrint StopsPrint after)
  | .block _ body right _ right_kind, after, _ =>
    Statement.eachPrintAll_iff body (right :: after) (.cons right_kind after)
  | .ifThen _ condition thenBranch _, after, h =>
    and_congr (condition.eachPrint_iff _ (.of_stops (thenBranch.stops after)))
      (Statement.eachPrint_iff thenBranch after h)
  | .ifElse _ condition thenBranch separator elseBranch _ separator_kind, after, h =>
    and_congr (condition.eachPrint_iff _ (.of_stops (thenBranch.stops _)))
      (and_congr
        (Statement.eachPrint_iff thenBranch _
          (.of_kind separator_kind (by decide) (by decide) _))
        (Statement.eachPrint_iff elseBranch after h))
  | .halt _ _, _, _ => Iff.rfl
  | .expression e, after, h => e.eachPrint_iff after (.of_stops h)

theorem Statement.eachPrintAll_iff : ∀ (statements : List Statement) (after : List Token),
    EndsStatements after →
    (EachPrintAll Derivation.IsLongest statements after ↔ EachPrintAll StopsPrint statements after)
  | [], _, _ => Iff.rfl
  | s :: statements, after, h =>
    and_congr (Statement.eachPrint_iff s _ (Stops.tokensAll statements h).1)
      (Statement.eachPrintAll_iff statements after h)

end

/-! ## Only one derivation is meant -/

/-- An assignment begins with a name. -/
theorem not_assigns_of_first {t : Token} {rest : List Token} (h : t.kind ≠ .identifier) :
    ¬ Assigns (t :: rest) := by
  rintro ⟨target, sign, more, same, target_kind, _⟩
  exact h ((List.cons.inj same).1 ▸ target_kind)

/-- No phrase but an assignment begins with a name and an `=`, unless an `=` stands behind it. -/
theorem Derivation.not_assigns : ∀ {p : Phrase} (d : Derivation p) {after : List Token},
    p ≠ .assignment → (∀ t ∈ after.head?, t.kind ≠ .equal) → ¬ Assigns (d.tokens ++ after)
  | _, .assign _ _ _ _ _, _, no, _ => absurd rfl no
  | _, .plain _, _, no, _ => absurd rfl no
  | _, @Derivation.chain level first rest, after, _, noEqual => by
    rw [Derivation.tokens_chain_append]
    refine first.not_assigns level.operand_ne_assignment ?_
    cases rest with
    | done => exact noEqual
    | more op operand rest kind =>
      rintro _ ⟨⟩
      exact Level.ne_equal_of_mem kind
  | _, .bang op operand kind, after, _, _ => not_assigns_of_first (by simp [kind])
  | _, .primary e, _, _, noEqual => e.not_assigns (by simp) noEqual
  | _, .group left e right kind _, after, _, _ => not_assigns_of_first (by simp [kind])
  | _, .print keyword e kind, after, _, _ => not_assigns_of_first (by simp [kind])
  | _, .input keyword kind, after, _, _ => not_assigns_of_first (by simp [kind])
  | _, .number token value kind, after, _, _ => not_assigns_of_first (by simp [kind])
  | _, .name token kind, after, _, noEqual => by
    rintro ⟨target, sign, rest, same, _, sign_kind⟩
    have behind : after = sign :: rest := (List.cons.inj same).2
    exact noEqual sign (by rw [behind]; rfl) sign_kind

/-- The kind of the first token of a derivation. -/
def Derivation.firstKind : {p : Phrase} → Derivation p → TokenKind
  | _, .assign _ _ _ _ _ => .identifier
  | _, .plain e => e.firstKind
  | _, .chain first _ => first.firstKind
  | _, .bang _ _ _ => .bang
  | _, .primary e => e.firstKind
  | _, .group _ _ _ _ _ => .leftParen
  | _, .print _ _ _ => .printWord
  | _, .input _ _ => .inputWord
  | _, .number _ value _ => .number value
  | _, .name _ _ => .identifier

/-- The first token of a derivation is of its first kind. -/
theorem Derivation.kind_head? : ∀ {p : Phrase} (d : Derivation p) (after : List Token),
    (d.tokens ++ after).head?.map Token.kind = some d.firstKind
  | _, .assign _ _ _ kind _, _ => congrArg some kind
  | _, .plain e, after => e.kind_head? after
  | _, .chain first rest, after => by
    rw [Derivation.tokens_chain_append]
    exact first.kind_head? _
  | _, .bang _ _ kind, _ => congrArg some kind
  | _, .primary e, after => e.kind_head? after
  | _, .group _ _ _ kind _, _ => congrArg some kind
  | _, .print _ _ kind, _ => congrArg some kind
  | _, .input _ kind, _ => congrArg some kind
  | _, .number _ _ kind, _ => congrArg some kind
  | _, .name _ kind, _ => congrArg some kind

/-- Derivations of the same tokens begin with the same kind. -/
theorem Derivation.firstKind_eq {p p' : Phrase} {d : Derivation p} {d' : Derivation p'}
    {after after' : List Token} (same : d.tokens ++ after = d'.tokens ++ after') :
    d.firstKind = d'.firstKind := by
  have head := d'.kind_head? after'
  rw [← same, d.kind_head? after] at head
  exact Option.some.inj head

mutual

/-- A derivation in which every `print` is stopped by the token behind it can be recovered from its
    tokens, also if others stand behind them that stop it. -/
theorem Derivation.unique : ∀ {p : Phrase} (d d' : Derivation p) {after after' : List Token},
    d.tokens ++ after = d'.tokens ++ after' → d.EachPrint StopsPrint after →
    d'.EachPrint StopsPrint after' → Stops p.bound after → Stops p.bound after' →
      d = d' ∧ after = after'
  | _, .assign target sign value target_kind sign_kind, d', after, after', same, prints, prints',
      stops, stops' => by
    cases d' with
    | assign target' sign' value' _ _ =>
      obtain ⟨rfl, behind⟩ := List.cons.inj same
      obtain ⟨rfl, values⟩ := List.cons.inj behind
      obtain ⟨rfl, rfl⟩ := value.unique value' values prints prints' stops stops'
      exact ⟨rfl, rfl⟩
    | plain e' =>
      -- the other derivation would be a bare name with an `=` behind it, which stops nothing
      exact absurd ⟨target, sign, _, same.symm, target_kind, sign_kind⟩
        (e'.not_assigns (by simp) fun t ht => (stops' t ht).2)
  | _, .plain e, d', after, after', same, prints, prints', stops, stops' => by
    cases d' with
    | assign target' sign' value' target_kind sign_kind =>
      exact absurd ⟨target', sign', _, same, target_kind, sign_kind⟩
        (e.not_assigns (by simp) fun t ht => (stops t ht).2)
    | plain e' =>
      obtain ⟨rfl, rfl⟩ := e.unique e' same prints prints' stops stops'
      exact ⟨rfl, rfl⟩
  | _, @Derivation.chain level first rest, d', after, after', same, prints, prints', stops,
      stops' => by
    cases d' with
    | chain first' rest' =>
      rw [Derivation.tokens_chain_append, Derivation.tokens_chain_append] at same
      obtain ⟨rfl, behind⟩ := first.unique first' same prints.1 prints'.1
        (by rw [level.bound_operand]; exact rest.stops stops)
        (by rw [level.bound_operand]; exact rest'.stops stops')
      obtain ⟨rfl, rfl⟩ := rest.unique rest' behind prints.2 prints'.2 stops stops'
      exact ⟨rfl, rfl⟩
  | _, .bang op operand kind, d', after, after', same, prints, prints', stops, stops' => by
    cases d' with
    | bang op' operand' _ =>
      obtain ⟨rfl, behind⟩ := List.cons.inj same
      obtain ⟨rfl, rfl⟩ := operand.unique operand' behind prints prints' stops stops'
      exact ⟨rfl, rfl⟩
    | primary e' => cases e' <;> cases Derivation.firstKind_eq same
  | _, .primary e, d', after, after', same, prints, prints', stops, stops' => by
    cases d' with
    | bang op' operand' kind' => cases e <;> cases Derivation.firstKind_eq same
    | primary e' =>
      obtain ⟨rfl, rfl⟩ := e.unique e' same prints prints' stops stops'
      exact ⟨rfl, rfl⟩
  | _, .group left e right kind right_kind, d', after, after', same, prints, prints', _, _ => by
    cases d' with
    | group left' e' right' _ right_kind' =>
      rw [Derivation.tokens_group_append, Derivation.tokens_group_append] at same
      obtain ⟨rfl, inside⟩ := List.cons.inj same
      obtain ⟨rfl, behind⟩ := e.unique e' inside prints prints'
        (.of_kind right_kind (by decide) (by decide) after)
        (.of_kind right_kind' (by decide) (by decide) after')
      obtain ⟨rfl, rfl⟩ := List.cons.inj behind
      exact ⟨rfl, rfl⟩
    | _ => cases Derivation.firstKind_eq same
  | _, .print keyword e kind, d', after, after', same, prints, prints', _, _ => by
    cases d' with
    | print keyword' e' _ =>
      obtain ⟨rfl, behind⟩ := List.cons.inj same
      obtain ⟨rfl, rfl⟩ := e.unique e' behind prints.1 prints'.1 prints.2 prints'.2
      exact ⟨rfl, rfl⟩
    | _ => cases Derivation.firstKind_eq same
  | _, .input keyword kind, d', after, after', same, _, _, _, _ => by
    cases d' with
    | input keyword' _ =>
      obtain ⟨rfl, rfl⟩ := List.cons.inj same
      exact ⟨rfl, rfl⟩
    | _ => cases Derivation.firstKind_eq same
  | _, .number token value kind, d', after, after', same, _, _, _, _ => by
    cases d' with
    | number token' value' kind' =>
      obtain ⟨rfl, rfl⟩ := List.cons.inj same
      obtain rfl : value = value' := TokenKind.number.inj (kind.symm.trans kind')
      exact ⟨rfl, rfl⟩
    | _ => cases Derivation.firstKind_eq same
  | _, .name token kind, d', after, after', same, _, _, _, _ => by
    cases d' with
    | name token' _ =>
      obtain ⟨rfl, rfl⟩ := List.cons.inj same
      exact ⟨rfl, rfl⟩
    | _ => cases Derivation.firstKind_eq same

/-- What goes on behind an operand can be recovered, too. -/
theorem Tail.unique : ∀ {level : Level} (r r' : Tail level) {after after' : List Token},
    r.tokens ++ after = r'.tokens ++ after' → r.EachPrint StopsPrint after →
    r'.EachPrint StopsPrint after' → Stops level.rank after → Stops level.rank after' →
      r = r' ∧ after = after'
  | level, .done, r', after, after', same, _, _, stops, _ => by
    cases r' with
    | done => exact ⟨rfl, same⟩
    | more op operand rest kind =>
      have low := (stops op (by rw [show after = _ from same]; rfl)).1
      have rank := Level.level_of_mem kind
      omega
  | level, .more op operand rest kind, r', after, after', same, prints, prints', stops, stops' => by
    cases r' with
    | done =>
      have low := (stops' op (by rw [show after' = _ from same.symm]; rfl)).1
      have rank := Level.level_of_mem kind
      omega
    | more op' operand' rest' _ =>
      rw [Tail.tokens_more_append, Tail.tokens_more_append] at same
      obtain ⟨rfl, operands⟩ := List.cons.inj same
      obtain ⟨rfl, behind⟩ := operand.unique operand' operands prints.1 prints'.1
        (by rw [level.bound_operand]; exact rest.stops stops)
        (by rw [level.bound_operand]; exact rest'.stops stops')
      obtain ⟨rfl, rfl⟩ := rest.unique rest' behind prints.2 prints'.2 stops stops'
      exact ⟨rfl, rfl⟩

end

/-- The kind of the first token of a statement. -/
def Statement.firstKind : Statement → TokenKind
  | .block _ _ _ _ _ => .leftBrace
  | .ifThen _ _ _ _ => .ifWord
  | .ifElse _ _ _ _ _ _ _ => .ifWord
  | .halt _ _ => .haltWord
  | .expression e => e.firstKind

theorem Statement.firstKind_eq {s s' : Statement} {after after' : List Token}
    (same : s.tokens ++ after = s'.tokens ++ after') : s.firstKind = s'.firstKind := by
  have heads : ∀ (s : Statement) (after : List Token),
      (s.tokens ++ after).head?.map Token.kind = some s.firstKind := by
    intro s after
    cases s with
    | block left body right kind _ => exact congrArg some kind
    | ifThen keyword condition thenBranch kind => exact congrArg some kind
    | ifElse keyword condition thenBranch separator elseBranch kind _ => exact congrArg some kind
    | halt keyword kind => exact congrArg some kind
    | expression e => exact e.kind_head? after
  have head := heads s' after'
  rw [← same, heads s after] at head
  exact Option.some.inj head

/-- An expression begins with another token than every other statement. -/
theorem Statement.not_expression {s : Statement} {e : Derivation .assignment}
    {after after' : List Token} (h : s.firstKind.beginsExpression = false)
    (same : s.tokens ++ after = (Statement.expression e).tokens ++ after') : False := by
  obtain ⟨t, rest, tokens, begins⟩ := e.exists_first
  have head := e.kind_head? []
  rw [tokens] at head
  rw [Statement.firstKind_eq same, show (Statement.expression e).firstKind = t.kind from
    (Option.some.inj head).symm, begins] at h
  cases h

/-- No statement begins with the brace that ends a block. -/
theorem Statement.not_rightBrace (s : Statement) {rest behind after : List Token}
    (same : after = s.tokens ++ rest ++ behind) (h : EndsStatements after) : False := by
  obtain ⟨t, more, tokens, begins⟩ := s.exists_first
  rw [h t (by rw [same, tokens]; rfl)] at begins
  cases begins

/-- Behind an `if`, the condition ends where the first branch begins. -/
theorem Statement.unique_condition {keyword keyword' : Token}
    {condition condition' : Derivation .assignment} {s s' : Statement} {after after' : List Token}
    (same : keyword :: (condition.tokens ++ (s.tokens ++ after)) =
      keyword' :: (condition'.tokens ++ (s'.tokens ++ after')))
    (prints : condition.EachPrint StopsPrint (s.tokens ++ after))
    (prints' : condition'.EachPrint StopsPrint (s'.tokens ++ after')) :
    keyword = keyword' ∧ condition = condition' ∧ s.tokens ++ after = s'.tokens ++ after' := by
  obtain ⟨keywords, behind⟩ := List.cons.inj same
  obtain ⟨conditions, branches⟩ :=
    condition.unique condition' behind prints prints' (s.stops after) (s'.stops after')
  exact ⟨keywords, conditions, branches⟩

mutual

/-- A statement in which every `print` is stopped by the token behind it, and every `else` stands
    with the nearest `if`, can be recovered from its tokens. -/
theorem Statement.unique : ∀ (s s' : Statement) {after after' : List Token},
    s.tokens ++ after = s'.tokens ++ after' → s.EachPrint StopsPrint after →
    s'.EachPrint StopsPrint after' → s.NearestElse → s'.NearestElse →
    Stops 1 after → Stops 1 after' → (s.IsOpen → NoElse after) →
    (s'.IsOpen → NoElse after') → s = s' ∧ after = after'
  | .block left body right left_kind right_kind, s', after, after', same, prints, prints', nearest,
      nearest', _, _, _, _ => by
    cases s' with
    | block left' body' right' _ right_kind' =>
      rw [tokens_block_append, tokens_block_append] at same
      obtain ⟨rfl, inside⟩ := List.cons.inj same
      obtain ⟨rfl, behind⟩ := Statement.uniqueAll body body' inside prints prints' nearest nearest'
        (.cons right_kind _) (.cons right_kind' _)
      obtain ⟨rfl, rfl⟩ := List.cons.inj behind
      exact ⟨rfl, rfl⟩
    | expression e' => exact (Statement.not_expression rfl same).elim
    | _ => cases Statement.firstKind_eq same
  | .ifThen keyword condition thenBranch kind, s', after, after', same, prints, prints', nearest,
      nearest', stops, stops', noElse, noElse' => by
    cases s' with
    | ifThen keyword' condition' thenBranch' _ =>
      rw [tokens_ifThen_append, tokens_ifThen_append] at same
      obtain ⟨rfl, rfl, branches⟩ := Statement.unique_condition same prints.1 prints'.1
      obtain ⟨rfl, rfl⟩ := Statement.unique thenBranch thenBranch' branches prints.2 prints'.2
        nearest nearest' stops stops' (fun _ => noElse trivial) (fun _ => noElse' trivial)
      exact ⟨rfl, rfl⟩
    | ifElse keyword' condition' thenBranch' separator' elseBranch' _ separator_kind' =>
      rw [tokens_ifThen_append, tokens_ifElse_append] at same
      obtain ⟨rfl, rfl, branches⟩ := Statement.unique_condition same prints.1 prints'.1
      obtain ⟨rfl, rfl⟩ := Statement.unique thenBranch thenBranch' branches prints.2 prints'.2.1
        nearest nearest'.1 stops (.of_kind separator_kind' (by decide) (by decide) _)
        (fun _ => noElse trivial) (fun isOpen => absurd isOpen nearest'.2.1)
      -- without the `else` the first `if` is open, so it would have had to take it
      exact absurd separator_kind' (noElse trivial separator' rfl)
    | expression e' => exact (Statement.not_expression rfl same).elim
    | _ => cases Statement.firstKind_eq same
  | .ifElse keyword condition thenBranch separator elseBranch kind separator_kind, s', after,
      after', same, prints, prints', nearest, nearest', stops, stops', noElse, noElse' => by
    cases s' with
    | ifThen keyword' condition' thenBranch' _ =>
      rw [tokens_ifElse_append, tokens_ifThen_append] at same
      obtain ⟨rfl, rfl, branches⟩ := Statement.unique_condition same prints.1 prints'.1
      obtain ⟨rfl, rfl⟩ := Statement.unique thenBranch thenBranch' branches prints.2.1 prints'.2
        nearest.1 nearest' (.of_kind separator_kind (by decide) (by decide) _) stops'
        (fun isOpen => absurd isOpen nearest.2.1) (fun _ => noElse' trivial)
      exact absurd separator_kind (noElse' trivial separator rfl)
    | ifElse keyword' condition' thenBranch' separator' elseBranch' _ separator_kind' =>
      rw [tokens_ifElse_append, tokens_ifElse_append] at same
      obtain ⟨rfl, rfl, branches⟩ := Statement.unique_condition same prints.1 prints'.1
      obtain ⟨rfl, second⟩ := Statement.unique thenBranch thenBranch' branches prints.2.1
        prints'.2.1 nearest.1 nearest'.1 (.of_kind separator_kind (by decide) (by decide) _)
        (.of_kind separator_kind' (by decide) (by decide) _)
        (fun isOpen => absurd isOpen nearest.2.1) (fun isOpen => absurd isOpen nearest'.2.1)
      obtain ⟨rfl, branches'⟩ := List.cons.inj second
      obtain ⟨rfl, rfl⟩ := Statement.unique elseBranch elseBranch' branches' prints.2.2 prints'.2.2
        nearest.2.2 nearest'.2.2 stops stops' noElse noElse'
      exact ⟨rfl, rfl⟩
    | expression e' => exact (Statement.not_expression rfl same).elim
    | _ => cases Statement.firstKind_eq same
  | .halt keyword kind, s', after, after', same, _, _, _, _, _, _, _, _ => by
    cases s' with
    | halt keyword' _ =>
      obtain ⟨rfl, rfl⟩ := List.cons.inj same
      exact ⟨rfl, rfl⟩
    | expression e' => exact (Statement.not_expression rfl same).elim
    | _ => cases Statement.firstKind_eq same
  | .expression e, s', after, after', same, prints, prints', _, _, stops, stops', _, _ => by
    cases s' with
    | expression e' =>
      obtain ⟨rfl, rfl⟩ := e.unique e' same prints prints' stops stops'
      exact ⟨rfl, rfl⟩
    | _ => exact (Statement.not_expression rfl same.symm).elim

/-- The same of a list of statements that ends at a brace, or at the end of the tokens. -/
theorem Statement.uniqueAll : ∀ (statements statements' : List Statement)
    {after after' : List Token}, tokensAll statements ++ after = tokensAll statements' ++ after' →
    EachPrintAll StopsPrint statements after → EachPrintAll StopsPrint statements' after' →
    NearestElseAll statements → NearestElseAll statements' →
    EndsStatements after → EndsStatements after' →
      statements = statements' ∧ after = after'
  | [], [], _, _, same, _, _, _, _, _, _ => ⟨rfl, same⟩
  | [], s' :: statements', after, after', same, _, _, _, _, ends, _ =>
    (s'.not_rightBrace (show after = _ from same) ends).elim
  | s :: statements, [], after, after', same, _, _, _, _, _, ends' =>
    (s.not_rightBrace (show after' = _ from same.symm) ends').elim
  | s :: statements, s' :: statements', after, after', same, prints, prints', nearest, nearest',
      ends, ends' => by
    rw [tokensAll_cons_append, tokensAll_cons_append] at same
    obtain ⟨stops, noElse⟩ := Stops.tokensAll statements ends
    obtain ⟨stops', noElse'⟩ := Stops.tokensAll statements' ends'
    obtain ⟨rfl, behind⟩ := Statement.unique s s' same prints.1 prints'.1 nearest.1 nearest'.1
      stops stops' (fun _ => noElse) (fun _ => noElse')
    obtain ⟨rfl, rfl⟩ := Statement.uniqueAll statements statements' behind prints.2 prints'.2
      nearest.2 nearest'.2 ends ends'
    exact ⟨rfl, rfl⟩

end

end Grammar

end NumScript
