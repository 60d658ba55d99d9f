/-
  Extra parentheses mean nothing.

  A group leaves no node in the tree.  But a parenthesis is a token, and might change how the tokens
  around it are read: it may stand where a statement ends, between two operators, or before an `=`.
  What may be put in parentheses is a PRIMARY, and it has to be the whole of it: a name that is not
  assigned to, and a `print` with all that it writes (`Derivation.IsWhole`).  Where a text is read,
  every token that can begin a primary begins a whole one (`Draft.exists_whole`), and that ends at
  one place only (`Derivation.tokens_eq_of_isWhole`).

  In front of a primary a draft has come to a place where an operand may begin, and then it does not
  matter how it has come there, behind an operator or at the end of a statement: it goes on like a
  draft that waits for an operand (`Draft.awaitsOperand_of_program?`).  There, reading the primary
  comes to the same as having read its tree, with parentheses and without
  (`Draft.program?_primary`); and what stands behind a primary cannot tell the one from the other,
  because only an `=` would ask and none stands there (`Draft.program?_parenthesized`).

  So a pair of parentheses around one primary may be added to a program, and then another pair, at
  the same place or elsewhere (`Program.parentheses_neutral`).
-/
import NumScript.Proofs.EarliestError
import NumScript.Proofs.MeantDerivation

namespace NumScript

open Draft Grammar

/-! ## Primaries -/

/-- The primary does not go on behind its tokens: a name is not assigned to, and a `print` has its
    whole operand.  All others end by themselves. -/
def Grammar.Derivation.IsWhole : Derivation .primary → List Token → Prop
  | .name token _, after => ¬ Assigns (token :: after)
  | .print _ e _, after => e.IsLongest after
  | _, _ => True

/-- A primary may begin here: the first token begins an expression, but neither with a `!` nor with
    an assignment. -/
def BeginsPrimary (tokens : List Token) : Prop :=
  ∃ t rest, tokens = t :: rest ∧ t.kind.beginsExpression = true ∧ t.kind ≠ .bang ∧ ¬ Assigns tokens

namespace Grammar

/-- Longest expressions on the same tokens are equally long. -/
theorem Derivation.tokens_eq_of_isLongest {e e' : Derivation .assignment}
    {after after' : List Token} (h : e.IsLongest after) (h' : e'.IsLongest after')
    (same : e.tokens ++ after = e'.tokens ++ after') : e.tokens = e'.tokens ∧ after = after' := by
  have shorter := h e' after' same.symm
  have longer := h' e after same
  exact List.append_inj same (by omega)

/-- Where a whole primary begins, only one ends. -/
theorem Derivation.tokens_eq_of_isWhole {d d' : Derivation .primary}
    {after after' : List Token} (h : d.IsWhole after) (h' : d'.IsWhole after')
    (same : d.tokens ++ after = d'.tokens ++ after') :
    d.tokens = d'.tokens ∧ after = after' := by
  cases d with
  | group left e right kind right_kind =>
    cases d' with
    | group left' e' right' _ right_kind' =>
      rw [tokens_group_append, tokens_group_append] at same
      obtain ⟨rfl, inside⟩ := List.cons.inj same
      obtain ⟨tokens, behind⟩ := tokens_eq_of_isLongest
        (isLongest_of_stops e (.of_kind right_kind (by decide) (by decide) after))
        (isLongest_of_stops e' (.of_kind right_kind' (by decide) (by decide) after')) inside
      obtain ⟨rfl, rfl⟩ := List.cons.inj behind
      exact ⟨by rw [Derivation.tokens, Derivation.tokens, tokens], rfl⟩
    | _ => cases Derivation.firstKind_eq same
  | print keyword e kind =>
    cases d' with
    | print keyword' e' _ =>
      obtain ⟨rfl, inside⟩ := List.cons.inj same
      obtain ⟨tokens, behind⟩ := tokens_eq_of_isLongest h h' inside
      exact ⟨by rw [Derivation.tokens, Derivation.tokens, tokens], behind⟩
    | _ => cases Derivation.firstKind_eq same
  | _ =>
    cases d' with
    | group | print => cases Derivation.firstKind_eq same
    | _ =>
      obtain ⟨rfl, behind⟩ := List.cons.inj same
      exact ⟨rfl, behind⟩

/-- A primary may begin where a whole one stands. -/
theorem Derivation.beginsPrimary {d : Derivation .primary} {after : List Token}
    (h : d.IsWhole after) : BeginsPrimary (d.tokens ++ after) := by
  obtain ⟨t, rest, tokens, begins⟩ := d.exists_first
  have kind : t.kind = d.firstKind := by
    have head := d.kind_head? after
    rw [tokens] at head
    exact Option.some.inj head
  refine ⟨t, rest ++ after, by rw [tokens]; rfl, begins, ?_, ?_⟩
  · rw [kind]
    cases d <;> exact nofun
  · cases d with
    | name token _ => exact h
    | _ =>
      rw [tokens]
      exact not_assigns_of_first (by rw [kind]; exact nofun)

/-- Primaries in which every `print` is stopped by the token behind it are whole. -/
theorem Derivation.isWhole_of_stops {d : Derivation .primary} {after : List Token}
    (prints : d.EachPrint StopsPrint after) (stops : Stops 4 after) : d.IsWhole after := by
  cases d with
  | print keyword e kind => exact isLongest_of_stops e prints.2
  | name token kind =>
    rintro ⟨name, sign, rest, same, _, sign_kind⟩
    exact (stops sign (by rw [(List.cons.inj same).2]; rfl)).2 sign_kind
  | _ => trivial

/-! ## What stands behind a derivation -/

/-- Only the next token counts, and only if no operator comes before it. -/
theorem Tail.stops_of_stops {level : Level} (r : Tail level) {after after' : List Token}
    (h : Stops 1 after → Stops 1 after') (stops : Stops 1 (r.tokens ++ after)) :
    Stops 1 (r.tokens ++ after') := by
  cases r with
  | done => exact h stops
  | more op operand rest kind => exact .cons (stops op rfl).1 (stops op rfl).2 _

mutual

/-- Where the next token is exchanged for one that stops as much, every `print` is still stopped. -/
theorem Derivation.eachPrint_of_stops : ∀ {p : Phrase} (d : Derivation p)
    {after after' : List Token}, (Stops 1 after → Stops 1 after') →
    d.EachPrint StopsPrint after → d.EachPrint StopsPrint after'
  | _, .assign _ _ value _ _, _, _, h, prints => value.eachPrint_of_stops h prints
  | _, .plain e, _, _, h, prints => e.eachPrint_of_stops h prints
  | _, .chain first rest, _, _, h, prints =>
    ⟨first.eachPrint_of_stops (rest.stops_of_stops h) prints.1,
      rest.eachPrint_of_stops h prints.2⟩
  | _, .bang _ operand _, _, _, h, prints => operand.eachPrint_of_stops h prints
  | _, .primary e, _, _, h, prints => e.eachPrint_of_stops h prints
  | _, .group _ e right _ right_kind, _, after', _, prints =>
    e.eachPrint_of_stops (fun _ => .of_kind right_kind (by decide) (by decide) after') prints
  | _, .print _ e _, _, _, h, prints => ⟨e.eachPrint_of_stops h prints.1, h prints.2⟩
  | _, .input _ _, _, _, _, _ => trivial
  | _, .number _ _ _, _, _, _, _ => trivial
  | _, .name _ _, _, _, _, _ => trivial

theorem Tail.eachPrint_of_stops : ∀ {level : Level} (r : Tail level) {after after' : List Token},
    (Stops 1 after → Stops 1 after') → r.EachPrint StopsPrint after →
    r.EachPrint StopsPrint after'
  | _, .done, _, _, _, _ => trivial
  | _, .more _ operand rest _, _, _, h, prints =>
    ⟨operand.eachPrint_of_stops (rest.stops_of_stops h) prints.1,
      rest.eachPrint_of_stops h prints.2⟩

end

end Grammar

/-! ## Where an operand begins -/

theorem TokenKind.ne_of_beginsExpression {k k' : TokenKind} (h : k.beginsExpression = true)
    (h' : k'.beginsExpression = false) : k ≠ k' := by
  rintro rfl
  rw [h] at h'
  cases h'

namespace Draft

variable {d : Draft} {c : Option Token} {holes : List Hole} {openings : List Opening}
  {body : List Stmt} {t : Token} {rest after : List Token} {p : Program}

/-- A draft goes on, with every token that begins an expression, like one that waits for an
    operand. -/
def AwaitsOperand (d : Draft) : Prop :=
  ∃ context openings body, ∀ (t : Token) (rest : List Token), t.kind.beginsExpression = true →
    d.program? (t :: rest) = program? ⟨.operand context, openings, body⟩ (t :: rest)

/-- Where a statement is due, an expression may begin with an operand. -/
theorem awaitsOperand_statement (openings : List Opening) (body : List Stmt) :
    AwaitsOperand ⟨.statement, openings, body⟩ := by
  refine ⟨⟨none, []⟩, openings, body, fun t rest begins => ?_⟩
  exact program?_statement rest (TokenKind.ne_of_beginsExpression begins rfl)
    (TokenKind.ne_of_beginsExpression begins rfl) (TokenKind.ne_of_beginsExpression begins rfl)
    (TokenKind.ne_of_beginsExpression begins rfl)

/-- The same future as another draft, if an expression begins. -/
theorem AwaitsOperand.congr {d' : Draft} (h : d'.AwaitsOperand)
    (same : ∀ (t : Token) (rest : List Token), t.kind.beginsExpression = true →
      d.program? (t :: rest) = d'.program? (t :: rest)) : d.AwaitsOperand := by
  obtain ⟨context, openings, body, operand⟩ := h
  exact ⟨context, openings, body,
    fun t rest begins => (same t rest begins).trans (operand t rest begins)⟩

/-- Behind a statement another one may begin with an operand. -/
theorem awaitsOperand_finished (s : Stmt) (openings : List Opening) (body : List Stmt) :
    AwaitsOperand ⟨.finished s, openings, body⟩ := by
  have focus : add s openings body =
      ⟨.statement, (add s openings body).openings, (add s openings body).body⟩ := by
    unfold add
    split <;> rfl
  have next : AwaitsOperand (add s openings body) := focus ▸ awaitsOperand_statement _ _
  refine next.congr fun t rest begins => program?_finished ?_
  rintro _ ⟨⟩ kind
  exact absurd kind (TokenKind.ne_of_beginsExpression begins rfl)

/-- Where an expression can begin, an operand is awaited. -/
theorem awaitsOperand_of_program? (begins : t.kind.beginsExpression = true)
    (h : d.program? (t :: rest) = some p) : d.AwaitsOperand := by
  have stops (t : Token) (rest : List Token) (begins : t.kind.beginsExpression = true) :
      Stops 1 (t :: rest) :=
    .of_beginsStatement (TokenKind.beginsStatement_of_beginsExpression begins) rest
  obtain ⟨focus, openings, body⟩ := d
  cases focus with
  | statement => exact awaitsOperand_statement openings body
  | operand context => exact ⟨context, openings, body, fun _ _ _ => rfl⟩
  | finished s => exact awaitsOperand_finished s openings body
  | value e g context =>
    obtain ⟨c, holes⟩ := context
    cases closed : Hole.closeAll e holes with
    | mk e' outer =>
      cases outer with
      | some outer =>
        -- inside of a parenthesis only the closing one could stand here
        obtain ⟨right, more, same, kind⟩ := exists_rightParen closed (stops t rest begins) h
        obtain ⟨rfl, rfl⟩ := List.cons.inj same
        exact absurd kind (TokenKind.ne_of_beginsExpression begins rfl)
      | none =>
        cases c with
        | none =>
          refine (awaitsOperand_finished (.expression e') openings body).congr
            fun t rest begins => ?_
          exact program?_expression g closed (stops t rest begins)
        | some keyword =>
          refine (awaitsOperand_statement (.thenBranch keyword e' :: openings) body).congr
            fun t rest begins => ?_
          exact program?_condition g closed rest (stops t rest begins)

/-! ## Parentheses around a primary -/

/-- Where tokens that begin a primary can be read, they begin with a whole one, in which every
    `print` is stopped by the token behind it. -/
theorem exists_whole {tokens : List Token} (begins : BeginsPrimary tokens)
    (h : program? ⟨.operand ⟨c, holes⟩, openings, body⟩ tokens = some p) :
    ∃ (e : Derivation .primary) (after : List Token), tokens = e.tokens ++ after ∧
      e.EachPrint StopsPrint after ∧ Stops 4 after ∧ e.IsWhole after := by
  obtain ⟨t, rest, rfl, _, noBang, noAssign⟩ := begins
  obtain ⟨e, after, split, prints, stops⟩ :=
    exists_primary (reads_all _).1 (Nat.le_refl _) noBang (fun _ => noAssign) h
  exact ⟨e, after, split, prints, stops, Derivation.isWhole_of_stops prints stops⟩

/-- Reading a primary comes to the same as having read its tree, whatever waits for it. -/
theorem program?_primary (e : Derivation .primary) (prints : e.EachPrint StopsPrint after)
    (stops : Stops 4 after) :
    program? ⟨.operand ⟨c, holes⟩, openings, body⟩ (e.tokens ++ after) =
      program? ⟨.value e.tree false ⟨c, holes⟩, openings, body⟩ after := by
  cases e with
  | group left e right kind right_kind =>
    rw [Derivation.tokens_group_append]
    exact program?_group kind right_kind stops
      (e.program?_tree c (.group :: holes) openings body (right :: after) trivial prints
        (.of_kind right_kind (by decide) (by decide) after))
  | print keyword e kind =>
    exact program?_print kind prints.2
      (e.program?_tree c (.printed keyword :: holes) openings body after trivial prints.1 prints.2)
  | input keyword kind => exact program?_operand (stepOperand_inputWord kind) after
  | number token value kind => exact program?_operand (stepOperand_number kind) after
  | name token kind => exact program?_operand (stepOperand_identifier kind) after

/-- With a pair of parentheses around a primary the same is read. -/
theorem program?_parenthesized {e : Derivation .primary} {left right : Token}
    (whole : e.IsWhole after) (left_kind : left.kind = .leftParen)
    (right_kind : right.kind = .rightParen) (h : d.program? (e.tokens ++ after) = some p) :
    d.program? (left :: (e.tokens ++ right :: after)) = some p := by
  obtain ⟨t, rest, first, begins, _⟩ := Derivation.beginsPrimary whole
  obtain ⟨⟨c, holes⟩, openings, body, operand⟩ :=
    awaitsOperand_of_program? begins (first ▸ h)
  have read : program? ⟨.operand ⟨c, holes⟩, openings, body⟩ (e.tokens ++ after) = some p := by
    rw [first, ← operand t rest begins, ← first]
    exact h
  -- what is read here may be derived in another way, but it has the same tokens
  obtain ⟨e', after', split, prints, stops, whole'⟩ :=
    exists_whole (Derivation.beginsPrimary whole) read
  obtain ⟨tokens, rfl⟩ := Derivation.tokens_eq_of_isWhole whole whole' split
  have stopped : Stops 1 (right :: after) := .of_kind right_kind (by decide) (by decide) after
  have inside : program? ⟨.operand ⟨c, .group :: holes⟩, openings, body⟩
      (e'.tokens ++ right :: after) =
        program? ⟨.value e'.tree false ⟨c, .group :: holes⟩, openings, body⟩ (right :: after) :=
    program?_primary e' (e'.eachPrint_of_stops (fun _ => stopped) prints)
      (stopped.mono (by decide))
  rw [operand left _ (by rw [left_kind]; rfl), tokens,
    program?_group left_kind right_kind stops inside, ← program?_primary e' prints stops, ← tokens]
  exact read

end Draft

/-! ## Programs -/

/-- The second tokens are the first with any number of pairs of parentheses, each put around a whole
    primary: of the first tokens, or one that already has some. -/
inductive Parenthesized (tokens : List Token) : List Token → Prop where
  | self : Parenthesized tokens tokens
  | pair {before after : List Token} {e : Derivation .primary} {left right : Token}
    (inner : Parenthesized tokens (before ++ (e.tokens ++ after))) (whole : e.IsWhole after)
    (left_kind : left.kind = .leftParen) (right_kind : right.kind = .rightParen) :
    Parenthesized tokens (before ++ left :: (e.tokens ++ right :: after))

namespace Program

variable {tokens before rest : List Token} {p : Program}

/-- Where a primary may begin in a program, a whole one stands. -/
theorem exists_whole (h : ofTokens (before ++ rest) = .ok p) (begins : BeginsPrimary rest) :
    ∃ (e : Derivation .primary) (after : List Token), rest = e.tokens ++ after ∧
      e.IsWhole after := by
  have read := ofTokens_eq_ok_iff.mp h
  obtain ⟨d, reached⟩ := exists_after?_of_program? read
  rw [program?_append reached] at read
  have ⟨t, more, split, first, _⟩ := begins
  subst split
  obtain ⟨⟨c, holes⟩, openings, body, operand⟩ := awaitsOperand_of_program? first read
  rw [operand t more first] at read
  obtain ⟨e, after, split, _, _, whole⟩ := Draft.exists_whole begins read
  exact ⟨e, after, split, whole⟩

/-- Parentheses around a whole primary leave the program as it is. -/
theorem ofTokens_parenthesized {e : Derivation .primary} {after : List Token}
    {left right : Token} (h : ofTokens (before ++ (e.tokens ++ after)) = .ok p)
    (whole : e.IsWhole after) (left_kind : left.kind = .leftParen)
    (right_kind : right.kind = .rightParen) :
    ofTokens (before ++ left :: (e.tokens ++ right :: after)) = .ok p := by
  have read := ofTokens_eq_ok_iff.mp h
  obtain ⟨d, reached⟩ := exists_after?_of_program? read
  rw [program?_append reached] at read
  refine ofTokens_eq_ok_iff.mpr ?_
  rw [program?_append reached]
  exact program?_parenthesized whole left_kind right_kind read

/-- Extra parentheses are neutral.  In tokens that make a program, every token that can begin a
    primary does: a number, an `input`, a name with no `=` behind it, an opening parenthesis with
    all up to the one that closes it, and a `print` with all that it writes.  A pair of parentheses
    around any of them, and then another around any that there are now, leaves the program as it
    is, with all the tokens in it. -/
theorem parentheses_neutral (h : ofTokens tokens = .ok p) :
    (∀ before rest, tokens = before ++ rest → BeginsPrimary rest →
      ∃ (e : Derivation .primary) (after : List Token), rest = e.tokens ++ after ∧
        e.IsWhole after) ∧
    ∀ tokens', Parenthesized tokens tokens' → ofTokens tokens' = .ok p := by
  refine ⟨?_, fun tokens' more => ?_⟩
  · rintro before rest rfl begins
    exact exists_whole h begins
  · induction more with
    | self => exact h
    | pair _ whole left_kind right_kind ih =>
      exact ofTokens_parenthesized ih whole left_kind right_kind

/-- The tokens of `x = print y * 2 z` are two statements, and so are those of
    `x = ((print y * 2)) (z)`. -/
theorem parentheses_neutral_of_product :
    let x : Token := ⟨.identifier, "x", 1⟩
    let y : Token := ⟨.identifier, "y", 1⟩
    let z : Token := ⟨.identifier, "z", 1⟩
    let sign : Token := ⟨.equal, "=", 1⟩
    let keyword : Token := ⟨.printWord, "print", 1⟩
    let times : Token := ⟨.star, "*", 1⟩
    let two : Token := ⟨.number 2.0, "2", 1⟩
    let left : Token := ⟨.leftParen, "(", 2⟩
    let right : Token := ⟨.rightParen, ")", 2⟩
    let tokens : List Token := [x, sign, keyword, y, times, two, z]
    let tokens' : List Token :=
      [x, sign, left, left, keyword, y, times, two, right, right, left, z, right]
    let p : Program := ⟨[.expression (.assign x (.print keyword
      (.binary (.var y) times (.literal two 2.0)))), .expression (.var z)]⟩
    ofTokens tokens = .ok p ∧ Parenthesized tokens tokens' ∧ ofTokens tokens' = .ok p := by
  intro x y z sign keyword times two left right tokens tokens' p
  have read : ofTokens tokens = .ok p := rfl
  let product : Derivation .assignment :=
    .plain (.chain (.chain (.chain (.primary (.name y rfl))
      (.more times (.primary (.number two 2.0 rfl)) .done (List.mem_cons_self))) .done) .done)
  let printing : Derivation .primary := .print keyword product rfl
  have once : Parenthesized tokens [x, sign, left, keyword, y, times, two, right, z] :=
    @Parenthesized.pair tokens [x, sign] [z] printing left right .self
      (isLongest_of_stops product (.of_kind rfl (by decide) (by decide) [])) rfl rfl
  have twice :
      Parenthesized tokens [x, sign, left, left, keyword, y, times, two, right, right, z] :=
    @Parenthesized.pair tokens [x, sign, left] [right, z] printing left right once
      (isLongest_of_stops product (.of_kind rfl (by decide) (by decide) [z])) rfl rfl
  have last : Parenthesized tokens tokens' :=
    @Parenthesized.pair tokens [x, sign, left, left, keyword, y, times, two, right, right] []
      (.name z rfl) left right twice (fun ⟨_, _, _, no, _⟩ => nomatch no) rfl rfl
  exact ⟨read, last, (parentheses_neutral read).2 tokens' last⟩

end Program

end NumScript
