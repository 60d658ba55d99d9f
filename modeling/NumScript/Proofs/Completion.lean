/-
  How drafts go on.

  Two drafts that stand at the same place may look different and still have the same future: an
  operator that is not yet closed is closed by whatever comes next, if that is not an operator that
  binds tighter.  `Draft.program?` is the future of a draft, the program that some tokens make of
  it; the laws here say which drafts have the same one.

  What comes next matters only by its first token.  `Stops n after` says that this token is neither
  an operator of level `n` or above nor an `=`; it is the condition under which a construct that is
  still open may be taken as closed (`Draft.program?_fill`).
-/
import NumScript.Cursor

namespace NumScript

/-! ## The future of a draft -/

/-- The program that a draft becomes with these tokens, if all of them fit and nothing is missing
    behind them. -/
def Draft.program? (d : Draft) (tokens : List Token) : Option Program :=
  (Cursor.readFrom d 1 tokens).1.toOption

/-- The line remembered at the end shows in no program. -/
theorem Draft.toOption_finish (d : Draft) (line line' : Nat) :
    (d.finish line).toOption = (d.finish line').toOption := by
  have atStatement : ∀ openings body,
      (finishStatement line openings body).toOption =
        (finishStatement line' openings body).toOption := by
    intro openings body
    unfold finishStatement
    split <;> rfl
  -- every other end is an error, whatever the line
  unfold finish
  split
  · exact atStatement _ _
  · rfl
  · split
    · rfl
    · rfl
    · exact atStatement _ _
  · exact atStatement _ _

/-- Whether tokens make a program does not depend on the line that is told about their end. -/
theorem Cursor.toOption_readFrom (d : Draft) (line line' : Nat) (tokens : List Token) :
    (readFrom d line tokens).1.toOption = (readFrom d line' tokens).1.toOption := by
  cases tokens with
  | nil => exact d.toOption_finish line line'
  | cons t rest =>
    unfold readFrom
    rfl

namespace Draft

theorem program?_nil (d : Draft) : d.program? [] = (d.finish 1).toOption := rfl

/-- A token that fits is taken, and the others decide. -/
theorem program?_cons {d next : Draft} {t : Token} (h : d.step t = .ok next) (rest : List Token) :
    d.program? (t :: rest) = next.program? rest := by
  unfold program?
  rw [Cursor.readFrom, h]
  exact Cursor.toOption_readFrom next t.line 1 rest

/-- A token that does not fit spoils the program. -/
theorem program?_cons_of_error {d : Draft} {t : Token} {e : Error} (h : d.step t = .error e)
    (rest : List Token) : d.program? (t :: rest) = none := by
  unfold program?
  rw [Cursor.readFrom, h]
  rfl

/-- A token that can be read at all fits the draft. -/
theorem step_of_program? {d : Draft} {t : Token} {rest : List Token} {p : Program}
    (h : d.program? (t :: rest) = some p) :
    ∃ next, d.step t = .ok next ∧ next.program? rest = some p := by
  cases hstep : d.step t with
  | ok next => exact ⟨next, rfl, by rw [← h, program?_cons hstep]⟩
  | error e => rw [program?_cons_of_error hstep] at h; cases h

/-- Drafts that do the same with the next token, or at the end, have the same future. -/
theorem program?_congr {d d' : Draft} {after : List Token}
    (next : ∀ t ∈ after.head?, d.step t = d'.step t)
    (last : after = [] → d.finish 1 = d'.finish 1) : d.program? after = d'.program? after := by
  cases after with
  | nil => rw [program?_nil, program?_nil, last rfl]
  | cons t rest =>
    have same : d.step t = d'.step t := next t rfl
    cases hstep : d'.step t with
    | ok d'' => rw [program?_cons hstep, program?_cons (same.trans hstep)]
    | error e => rw [program?_cons_of_error hstep, program?_cons_of_error (same.trans hstep)]

end Draft

/-- Tokens make the program that the empty draft becomes with them. -/
theorem Program.ofTokens_eq_ok_iff {tokens : List Token} {p : Program} :
    Program.ofTokens tokens = .ok p ↔ Draft.empty.program? tokens = some p := by
  show (Cursor.readFrom .empty 1 tokens).1 = .ok p ↔
    (Cursor.readFrom .empty 1 tokens).1.toOption = some p
  cases (Cursor.readFrom .empty 1 tokens).1 with
  | ok q => exact ⟨fun h => by cases h; rfl, fun h => by cases h; rfl⟩
  | error e => exact ⟨nofun, nofun⟩

/-! ## What comes next -/

/-- The next token is neither an operator of this level or a tighter one nor an `=`. -/
def Stops (n : Nat) (after : List Token) : Prop :=
  ∀ t ∈ after.head?, t.kind.level < n ∧ t.kind ≠ .equal

theorem Stops.nil (n : Nat) : Stops n [] := nofun

/-- What begins with a loose enough token, and no `=`, stops the level. -/
theorem Stops.cons {n : Nat} {t : Token} (level : t.kind.level < n) (sign : t.kind ≠ .equal)
    (rest : List Token) : Stops n (t :: rest) := by
  rintro _ ⟨⟩
  exact ⟨level, sign⟩

/-- What stops a level stops every tighter one. -/
theorem Stops.mono {m n : Nat} {after : List Token} (h : Stops m after) (le : m ≤ n) :
    Stops n after := by
  intro t ht
  obtain ⟨level, sign⟩ := h t ht
  exact ⟨by omega, sign⟩

/-- Whether a token stops a level depends on its kind alone. -/
theorem Stops.of_kind {n : Nat} {t : Token} {k : TokenKind} (h : t.kind = k) (level : k.level < n)
    (sign : k ≠ .equal) (rest : List Token) : Stops n (t :: rest) :=
  .cons (h ▸ level) (h ▸ sign) rest

/-- No `else` comes next. -/
def NoElse (after : List Token) : Prop :=
  ∀ t ∈ after.head?, t.kind ≠ .elseWord

/-- Statements end here: with the closing brace of a block or with the program. -/
def EndsStatements (after : List Token) : Prop :=
  ∀ t ∈ after.head?, t.kind = .rightBrace

namespace EndsStatements

theorem nil : EndsStatements [] := nofun

theorem cons {right : Token} (h : right.kind = .rightBrace) (rest : List Token) :
    EndsStatements (right :: rest) := by
  rintro _ ⟨⟩
  exact h

/-- Where statements end, no expression goes on. -/
theorem stops {after : List Token} (h : EndsStatements after) : Stops 1 after := by
  intro t ht
  rw [h t ht]
  exact ⟨by decide, nofun⟩

/-- Where statements end, no `if` goes on. -/
theorem noElse {after : List Token} (h : EndsStatements after) : NoElse after := by
  intro t ht
  rw [h t ht]
  exact nofun

end EndsStatements

/-- There are three levels of operators. -/
theorem TokenKind.level_le (k : TokenKind) : k.level ≤ 3 := by
  unfold level
  split <;> decide

namespace Hole

/-- A token that stops this level closes the construct. -/
def bound : Hole → Nat
  | operand _ => 4
  | right _ op => op.kind.level + 1
  | assigned _ => 1
  | printed _ => 1
  | group => 0

/-- No operator of this level or a looser one closes any of the constructs. -/
def Looser (n : Nat) : List Hole → Prop
  | operand _ :: _ => 3 < n
  | right _ op :: _ => 0 < op.kind.level ∧ op.kind.level < n
  | _ => True

theorem Looser.mono {m n : Nat} {holes : List Hole} (h : Looser m holes) (le : m ≤ n) :
    Looser n holes := by
  unfold Looser at h ⊢
  split at h
  · omega
  · obtain ⟨low, high⟩ := h
    exact ⟨low, by omega⟩
  · trivial

/-- An operator closes nothing that is looser. -/
theorem Looser.closeTighter {level : Nat} {holes : List Hole} (h : Looser level holes)
    (le : level ≤ 3) (e : Expr) : Hole.closeTighter level e holes = (e, holes) := by
  unfold Hole.closeTighter
  split
  · exact absurd h (Nat.not_lt.mpr le)
  · rw [if_neg (Nat.not_le.mpr h.2)]
  · rfl

/-- A name behind constructs that nothing loose closes may be assigned to. -/
theorem Looser.allowsTarget : ∀ {holes : List Hole}, Looser 1 holes →
    Hole.allowsTarget holes = true
  | [], _ => rfl
  | operand _ :: _, h => absurd h (by decide : ¬ 3 < 1)
  | right _ _ :: _, ⟨low, high⟩ => absurd high (Nat.not_lt.mpr low)
  | assigned _ :: _, _ => rfl
  | printed _ :: _, _ => rfl
  | group :: _, _ => rfl

end Hole

namespace Draft

variable {c : Option Token} {holes : List Hole} {openings : List Opening} {body : List Stmt}

/-! ## One token -/

theorem stepOperand_number {context : Context} {t : Token} {value : Float}
    (h : t.kind = .number value) :
    stepOperand context t = .ok (.value (.literal t value) false context) := by
  obtain ⟨kind, lexeme, line⟩ := t
  cases h
  rfl

theorem stepOperand_identifier {context : Context} {t : Token} (h : t.kind = .identifier) :
    stepOperand context t = .ok (.value (.var t) false context) := by
  obtain ⟨kind, lexeme, line⟩ := t
  cases h
  rfl

theorem stepOperand_inputWord {context : Context} {t : Token} (h : t.kind = .inputWord) :
    stepOperand context t = .ok (.value (.input t) false context) := by
  obtain ⟨kind, lexeme, line⟩ := t
  cases h
  rfl

/-- A `print` waits for what it writes. -/
theorem stepOperand_printWord {context : Context} {t : Token} (h : t.kind = .printWord) :
    stepOperand context t = .ok (.operand (context.push (.printed t))) := by
  obtain ⟨kind, lexeme, line⟩ := t
  cases h
  rfl

/-- A `!` waits for its operand. -/
theorem stepOperand_bang {context : Context} {t : Token} (h : t.kind = .bang) :
    stepOperand context t = .ok (.operand (context.push (.operand t))) := by
  obtain ⟨kind, lexeme, line⟩ := t
  cases h
  rfl

/-- A parenthesis waits for what is in it. -/
theorem stepOperand_leftParen {context : Context} {t : Token} (h : t.kind = .leftParen) :
    stepOperand context t = .ok (.operand (context.push .group)) := by
  obtain ⟨kind, lexeme, line⟩ := t
  cases h
  rfl

/-- A token that fits where an operand is due decides what comes next, and nothing else. -/
theorem program?_operand {context : Context} {t : Token} {focus : Focus}
    (h : stepOperand context t = .ok focus) (rest : List Token) :
    program? ⟨.operand context, openings, body⟩ (t :: rest) =
      program? ⟨focus, openings, body⟩ rest := by
  apply program?_cons
  show (stepOperand context t).map _ = _
  rw [h]
  rfl

/-- Where neither an operator nor an `=` comes, the constructs around the value end. -/
theorem step_value {t : Token} {e : Expr} {g : Bool} {context : Context}
    (noOperator : ¬ 0 < t.kind.level) (noSign : t.kind ≠ .equal) :
    step ⟨.value e g context, openings, body⟩ t = stepClose e context openings body t :=
  (if_neg noOperator).trans (if_neg noSign)

/-- Behind a whole expression comes what its place asks for. -/
theorem stepClose_whole {t : Token} {e e' : Expr}
    (closed : Hole.closeAll e holes = (e', none)) : stepClose e ⟨c, holes⟩ openings body t =
      match c with
      | some keyword => stepStatement (.thenBranch keyword e' :: openings) body t
      | none => stepFinished (.expression e') openings body t := by
  cases c with
  | none => simp only [stepClose, closed]
  | some keyword => simp only [stepClose, closed]

/-- An operator takes the value before it, with all tighter operators closed, as its left
    operand. -/
theorem program?_operator {t : Token} (e : Expr) (g : Bool) (operator : 0 < t.kind.level)
    (rest : List Token) :
    program? ⟨.value e g ⟨c, holes⟩, openings, body⟩ (t :: rest) =
      program? ⟨.operand ⟨c, .right (Hole.closeTighter t.kind.level e holes).1 t ::
        (Hole.closeTighter t.kind.level e holes).2⟩, openings, body⟩ rest := by
  apply program?_cons
  exact if_pos operator

/-- An `=` behind a name that may be assigned to opens an assignment. -/
theorem program?_equal {name sign : Token} (h : sign.kind = .equal)
    (target : Hole.allowsTarget holes = true) (rest : List Token) :
    program? ⟨.value (.var name) false ⟨c, holes⟩, openings, body⟩ (sign :: rest) =
      program? ⟨.operand ⟨c, .assigned name :: holes⟩, openings, body⟩ rest := by
  apply program?_cons
  have level : ¬ 0 < sign.kind.level := by rw [h]; decide
  simp only [step, stepValue, if_neg level, if_pos h, target]
  rfl

/-- A closing parenthesis closes everything up to the one that it belongs to. -/
theorem program?_rightParen {t : Token} {e e' : Expr} {outer : List Hole} (g : Bool)
    (h : t.kind = .rightParen) (closed : Hole.closeAll e holes = (e', some outer))
    (rest : List Token) :
    program? ⟨.value e g ⟨c, holes⟩, openings, body⟩ (t :: rest) =
      program? ⟨.value e' true ⟨c, outer⟩, openings, body⟩ rest := by
  apply program?_cons
  have level : ¬ 0 < t.kind.level := by rw [h]; decide
  have sign : t.kind ≠ .equal := by rw [h]; decide
  rw [step_value level sign]
  simp only [stepClose, closed, if_pos h]

/-! ## Values -/

/-- A construct that waits for a value is complete where nothing binds tighter. -/
theorem program?_fill (hole : Hole) {after : List Token} (e : Expr) (g g' : Bool)
    (open_ : hole ≠ .group) (stops : Stops hole.bound after) :
    program? ⟨.value e g ⟨c, hole :: holes⟩, openings, body⟩ after =
      program? ⟨.value (hole.fill e) g' ⟨c, holes⟩, openings, body⟩ after := by
  have closed : Hole.closeAll e (hole :: holes) = Hole.closeAll (hole.fill e) holes := by
    cases hole with
    | group => exact absurd rfl open_
    | _ => rfl
  refine program?_congr (fun t ht => ?_) (fun _ => ?_)
  · obtain ⟨level, sign⟩ := stops t ht
    simp only [step, stepValue, stepClose, if_neg sign, closed]
    -- an operator that does not bind tighter closes the construct before it takes its left operand
    by_cases operator : 0 < t.kind.level
    · have tighter : Hole.closeTighter t.kind.level e (hole :: holes) =
          Hole.closeTighter t.kind.level (hole.fill e) holes := by
        cases hole with
        | operand op => rfl
        | right left op => exact if_pos (Nat.lt_succ_iff.mp level)
        | assigned name => exact absurd level (Nat.not_lt.mpr operator)
        | printed keyword => exact absurd level (Nat.not_lt.mpr operator)
        | group => exact absurd rfl open_
      rw [if_pos operator, if_pos operator, tighter]
    · rw [if_neg operator, if_neg operator]
  · simp only [finish, closed]

/-- Only an `=` asks whether the last operand was in parentheses. -/
theorem program?_grouped {n : Nat} {after : List Token} {context : Context} (e : Expr)
    (g g' : Bool) (stops : Stops n after) :
    program? ⟨.value e g context, openings, body⟩ after =
      program? ⟨.value e g' context, openings, body⟩ after := by
  refine program?_congr (fun t ht => ?_) (fun _ => rfl)
  simp only [step, stepValue, if_neg (stops t ht).2]

/-- What is read inside of a pair of parentheses is read with them, if no `=` follows. -/
theorem program?_group {n : Nat} {left right : Token} {inner after : List Token} {e : Expr}
    (left_kind : left.kind = .leftParen) (right_kind : right.kind = .rightParen)
    (stops : Stops n after)
    (read : program? ⟨.operand ⟨c, .group :: holes⟩, openings, body⟩ (inner ++ right :: after) =
      program? ⟨.value e false ⟨c, .group :: holes⟩, openings, body⟩ (right :: after)) :
    program? ⟨.operand ⟨c, holes⟩, openings, body⟩ (left :: (inner ++ right :: after)) =
      program? ⟨.value e false ⟨c, holes⟩, openings, body⟩ after := by
  rw [program?_operand (stepOperand_leftParen left_kind)]
  show program? ⟨.operand ⟨c, .group :: holes⟩, openings, body⟩ _ = _
  rw [read, program?_rightParen false right_kind rfl]
  exact program?_grouped _ true false stops

/-- What is read behind a `print` is read with it, if what follows stops it. -/
theorem program?_print {keyword : Token} {inner after : List Token} {e : Expr}
    (kind : keyword.kind = .printWord) (stops : Stops 1 after)
    (read : program? ⟨.operand ⟨c, .printed keyword :: holes⟩, openings, body⟩ (inner ++ after) =
      program? ⟨.value e false ⟨c, .printed keyword :: holes⟩, openings, body⟩ after) :
    program? ⟨.operand ⟨c, holes⟩, openings, body⟩ (keyword :: (inner ++ after)) =
      program? ⟨.value (.print keyword e) false ⟨c, holes⟩, openings, body⟩ after := by
  rw [program?_operand (stepOperand_printWord kind)]
  show program? ⟨.operand ⟨c, .printed keyword :: holes⟩, openings, body⟩ _ = _
  rw [read]
  exact program?_fill (.printed keyword) e false false nofun stops

/-- Behind a whole expression that is a statement, the statement is complete. -/
theorem program?_expression {after : List Token} {e e' : Expr} (g : Bool)
    (closed : Hole.closeAll e holes = (e', none)) (stops : Stops 1 after) :
    program? ⟨.value e g ⟨none, holes⟩, openings, body⟩ after =
      program? ⟨.finished (.expression e'), openings, body⟩ after := by
  refine program?_congr (fun t ht => ?_) (fun _ => ?_)
  · obtain ⟨level, sign⟩ := stops t ht
    have noOperator : ¬ 0 < t.kind.level := by omega
    rw [step_value noOperator sign, stepClose_whole closed]
    rfl
  · simp only [finish, closed]

/-- Behind a whole condition the first branch begins. -/
theorem program?_condition {t : Token} {e e' : Expr} {keyword : Token} (g : Bool)
    (closed : Hole.closeAll e holes = (e', none)) (rest : List Token)
    (stops : Stops 1 (t :: rest)) :
    program? ⟨.value e g ⟨some keyword, holes⟩, openings, body⟩ (t :: rest) =
      program? ⟨.statement, .thenBranch keyword e' :: openings, body⟩ (t :: rest) := by
  refine program?_congr (fun u hu => ?_) nofun
  obtain ⟨level, sign⟩ := stops u hu
  have noOperator : ¬ 0 < u.kind.level := by omega
  rw [step_value noOperator sign, stepClose_whole closed]
  rfl

/-! ## Statements -/

/-- Every token but those that begin a statement of another kind begins an expression. -/
theorem program?_statement {t : Token} (rest : List Token) (left : t.kind ≠ .leftBrace)
    (right : t.kind ≠ .rightBrace) (choice : t.kind ≠ .ifWord) (halt : t.kind ≠ .haltWord) :
    program? ⟨.statement, openings, body⟩ (t :: rest) =
      program? ⟨.operand ⟨none, []⟩, openings, body⟩ (t :: rest) := by
  refine program?_congr (fun u hu => ?_) nofun
  cases hu
  show stepStatement openings body t = _
  unfold stepStatement
  split
  · exact absurd ‹_› left
  · exact absurd ‹_› right
  · exact absurd ‹_› choice
  · exact absurd ‹_› halt
  · rfl

theorem program?_leftBrace {t : Token} (h : t.kind = .leftBrace) (rest : List Token) :
    program? ⟨.statement, openings, body⟩ (t :: rest) =
      program? ⟨.statement, .block t [] :: openings, body⟩ rest := by
  obtain ⟨kind, lexeme, line⟩ := t
  cases h
  exact program?_cons rfl rest

/-- A closing brace makes a statement of the block that is open. -/
theorem program?_rightBrace {t brace : Token} {inner : List Stmt} (h : t.kind = .rightBrace)
    (rest : List Token) :
    program? ⟨.statement, .block brace inner :: openings, body⟩ (t :: rest) =
      program? ⟨.finished (.block brace inner.reverse), openings, body⟩ rest := by
  obtain ⟨kind, lexeme, line⟩ := t
  cases h
  exact program?_cons rfl rest

/-- An `if` waits for its condition. -/
theorem program?_ifWord {t : Token} (h : t.kind = .ifWord) (rest : List Token) :
    program? ⟨.statement, openings, body⟩ (t :: rest) =
      program? ⟨.operand ⟨some t, []⟩, openings, body⟩ rest := by
  obtain ⟨kind, lexeme, line⟩ := t
  cases h
  exact program?_cons rfl rest

/-- A `halt` is a statement of its own. -/
theorem program?_haltWord {t : Token} (h : t.kind = .haltWord) (rest : List Token) :
    program? ⟨.statement, openings, body⟩ (t :: rest) =
      program? ⟨.finished (.halt t), openings, body⟩ rest := by
  obtain ⟨kind, lexeme, line⟩ := t
  cases h
  exact program?_cons rfl rest

/-- An `else` is taken by the nearest `if` that waits for one. -/
theorem program?_elseWord {t : Token} {s : Stmt} {openings' : List Opening}
    (h : t.kind = .elseWord) (attached : attachElse? s openings = some openings')
    (rest : List Token) :
    program? ⟨.finished s, openings, body⟩ (t :: rest) =
      program? ⟨.statement, openings', body⟩ rest := by
  apply program?_cons
  show stepFinished s openings body t = _
  simp only [stepFinished, h, attached]

/-- Where no `else` can go on with it, a complete statement is added to those before it. -/
theorem program?_finished {after : List Token} {s : Stmt}
    (noElse : ∀ t ∈ after.head?, t.kind = .elseWord → attachElse? s openings = none) :
    program? ⟨.finished s, openings, body⟩ after = program? (add s openings body) after := by
  -- a token that is no `else` is a step of the draft with the statement added
  have focus : (add s openings body).focus = .statement := by
    unfold add
    split <;> rfl
  refine program?_congr (fun t ht => ?_) (fun _ => ?_)
  · simp only [step, focus]
    unfold stepFinished
    split
    · rename_i kind attached
      rw [noElse t ht kind] at attached
      cases attached
    · rfl
  · simp only [finish, focus, finishAfter]

/-- An `if` whose only branch is complete is a complete statement unless an `else` follows. -/
theorem program?_thenBranch {after : List Token} {keyword : Token} {condition : Expr} {s : Stmt}
    (noElse : NoElse after) :
    program? ⟨.finished s, .thenBranch keyword condition :: openings, body⟩ after =
      program? ⟨.finished (.ifThen keyword condition s), openings, body⟩ after := by
  rw [program?_finished fun t ht kind => absurd kind (noElse t ht),
    program?_finished fun t ht kind => absurd kind (noElse t ht)]
  rfl

/-- An `if` whose second branch is complete is a complete statement. -/
theorem program?_elseBranch {keyword : Token} {condition : Expr} {first s : Stmt}
    (after : List Token) :
    program? ⟨.finished s, .elseBranch keyword condition first :: openings, body⟩ after =
      program? ⟨.finished (.ifElse keyword condition first s), openings, body⟩ after :=
  program?_congr (fun _ _ => rfl) (fun _ => rfl)

end Draft

end NumScript
