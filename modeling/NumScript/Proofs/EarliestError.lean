/-
  Syntax errors are reported at the earliest token.

  Tokens are VIABLE if more tokens behind them make a program of them.  An error about a token says
  that the tokens before it are viable and that with it they no longer are; an error about the end
  says that all tokens are viable and only something is missing.  So no error comes a token late,
  and none early.

  That no error comes late needs no more than that reading never looks back: a token that does not
  fit ends it, whatever stands behind.  That no error comes early is the statement that every draft
  can be completed (`Draft.exists_completion`), by induction on what is open in it.  An operand is a
  name, every parenthesis is closed, the first branch of an `if` is a `halt`, and every block is
  closed.  It holds of every draft and not only of those that are ever reached, so no invariant of
  drafts is needed.
-/
import NumScript.Proofs.Completion

namespace NumScript

namespace Draft

/-! ## Every draft can be completed -/

/-- Behind a complete statement only the blocks around it have to be closed. -/
theorem exists_closing (s : Stmt) (openings : List Opening) (body : List Stmt) :
    ∃ more p, EndsStatements more ∧ program? ⟨.finished s, openings, body⟩ more = some p := by
  induction openings generalizing s with
  | nil => exact ⟨[], _, .nil, rfl⟩
  | cons opening outer ih =>
    cases opening with
    | thenBranch keyword condition =>
      obtain ⟨more, p, ends, completed⟩ := ih (.ifThen keyword condition s)
      exact ⟨more, p, ends, (program?_thenBranch ends.noElse).trans completed⟩
    | elseBranch keyword condition first =>
      obtain ⟨more, p, ends, completed⟩ := ih (.ifElse keyword condition first s)
      exact ⟨more, p, ends, (program?_elseBranch more).trans completed⟩
    | block brace inner =>
      obtain ⟨more, p, _, completed⟩ := ih (.block brace (s :: inner).reverse)
      let right : Token := ⟨.rightBrace, "\x7d", 1⟩
      have ends : EndsStatements (right :: more) := .cons rfl more
      refine ⟨right :: more, p, ends, ?_⟩
      rw [program?_finished fun t ht kind => absurd kind (ends.noElse t ht)]
      show program? ⟨.statement, .block brace (s :: inner) :: outer, body⟩ (right :: more) = _
      rw [program?_rightBrace rfl]
      exact completed

/-- Where a statement is due, a `halt` is one. -/
theorem exists_halting (openings : List Opening) (body : List Stmt) :
    ∃ t more p, t.kind = .haltWord ∧
      program? ⟨.statement, openings, body⟩ (t :: more) = some p := by
  obtain ⟨more, p, _, completed⟩ := exists_closing (.halt ⟨.haltWord, "halt", 1⟩) openings body
  exact ⟨⟨.haltWord, "halt", 1⟩, more, p, rfl, (program?_haltWord rfl more).trans completed⟩

/-- Behind a value the parenthesis around it is closed, then the next one, and at last the statement
    is complete, or the first branch comes. -/
theorem exists_ending (e : Expr) (g : Bool) (c : Option Token) (holes : List Hole)
    (openings : List Opening) (body : List Stmt) :
    ∃ more p, Stops 1 more ∧ program? ⟨.value e g ⟨c, holes⟩, openings, body⟩ more = some p := by
  induction holes generalizing e g with
  | nil =>
    cases c with
    | none =>
      obtain ⟨more, p, ends, completed⟩ := exists_closing (.expression e) openings body
      exact ⟨more, p, ends.stops, (program?_expression g rfl ends.stops).trans completed⟩
    | some keyword =>
      obtain ⟨t, more, p, kind, completed⟩ :=
        exists_halting (.thenBranch keyword e :: openings) body
      have stops : Stops 1 (t :: more) := .of_kind kind (by decide) (by decide) more
      exact ⟨t :: more, p, stops, (program?_condition g rfl more stops).trans completed⟩
  | cons hole outer ih =>
    -- every construct but a parenthesis is closed by what comes next
    by_cases group : hole = .group
    · obtain ⟨more, p, _, completed⟩ := ih e true
      let right : Token := ⟨.rightParen, ")", 1⟩
      refine ⟨right :: more, p, .of_kind (k := .rightParen) rfl (by decide) (by decide) more, ?_⟩
      rw [group, program?_rightParen g rfl rfl]
      exact completed
    · obtain ⟨more, p, stops, completed⟩ := ih (hole.fill e) g
      have low : 1 ≤ hole.bound := by
        cases hole with
        | group => exact absurd rfl group
        | _ => exact Nat.le_add_left 1 _
      exact ⟨more, p, stops, (program?_fill hole e g g group (stops.mono low)).trans completed⟩

/-- Every draft can be completed. -/
theorem exists_completion (d : Draft) : ∃ more p, d.program? more = some p := by
  obtain ⟨focus, openings, body⟩ := d
  cases focus with
  | statement =>
    obtain ⟨t, more, p, _, completed⟩ := exists_halting openings body
    exact ⟨t :: more, p, completed⟩
  | operand context =>
    let name : Token := ⟨.identifier, "x", 1⟩
    obtain ⟨more, p, _, completed⟩ :=
      exists_ending (.var name) false context.condition context.holes openings body
    exact ⟨name :: more, p, (program?_operand (stepOperand_identifier rfl) more).trans completed⟩
  | value e grouped context =>
    obtain ⟨more, p, _, completed⟩ :=
      exists_ending e grouped context.condition context.holes openings body
    exact ⟨more, p, completed⟩
  | finished s =>
    obtain ⟨more, p, _, completed⟩ := exists_closing s openings body
    exact ⟨more, p, completed⟩

/-! ## Where reading stops -/

/-- The draft with some more tokens, if all of them fit. -/
def after? (d : Draft) : List Token → Option Draft
  | [] => some d
  | t :: rest =>
    match d.step t with
    | .ok next => next.after? rest
    | .error _ => none

section Front

variable {d d' : Draft} {t : Token} {front : List Token}

/-- Tokens are read one by one. -/
theorem step_of_after? {front : List Token} (h : d.after? (t :: front) = some d') :
    ∃ next, d.step t = .ok next ∧ next.after? front = some d' := by
  rw [after?] at h
  cases stepped : d.step t with
  | ok next =>
    rw [stepped] at h
    exact ⟨next, rfl, h⟩
  | error e =>
    rw [stepped] at h
    cases h

/-- Tokens that have been read already need not be read again. -/
theorem program?_append (h : d.after? front = some d') (rest : List Token) :
    d.program? (front ++ rest) = d'.program? rest := by
  induction front generalizing d with
  | nil =>
    cases h
    rfl
  | cons t front ih =>
    obtain ⟨next, stepped, later⟩ := step_of_after? h
    rw [List.cons_append, program?_cons stepped]
    exact ih later

/-- Drafts are reached token by token. -/
theorem after?_append (h : d.after? front = some d') (rest : List Token) :
    d.after? (front ++ rest) = d'.after? rest := by
  induction front generalizing d with
  | nil =>
    cases h
    rfl
  | cons t front ih =>
    obtain ⟨next, stepped, later⟩ := step_of_after? h
    rw [List.cons_append, after?, stepped]
    exact ih later

/-- Tokens that can be read with others behind them can be read. -/
theorem exists_after?_of_program? {more : List Token} {p : Program}
    (h : d.program? (front ++ more) = some p) : ∃ d', d.after? front = some d' := by
  induction front generalizing d with
  | nil => exact ⟨d, rfl⟩
  | cons t front ih =>
    obtain ⟨next, stepped, reads⟩ := step_of_program? h
    rw [after?, stepped]
    exact ih reads

end Front

/-! ## What errors name -/

theorem eq_error_of_map {α β : Type} {x : Except Error α} {f : α → β} {e : Error}
    (h : x.map f = .error e) : x = .error e := by
  cases x with
  | ok a => cases h
  | error e' => exact congrArg Except.error (Except.error.inj h)

/-- What does not fit where an operand is due is misplaced. -/
theorem misplaced_of_stepOperand {context : Context} {t : Token} {e : Error}
    (h : stepOperand context t = .error e) : ∃ text, e = .misplaced t text := by
  unfold stepOperand at h
  split at h <;> first | (cases h; done) | exact ⟨expectedExpression, (Except.error.inj h).symm⟩

/-- What does not fit where a statement is due is misplaced. -/
theorem misplaced_of_stepStatement {openings : List Opening} {body : List Stmt} {t : Token}
    {e : Error} (h : stepStatement openings body t = .error e) : ∃ text, e = .misplaced t text := by
  unfold stepStatement at h
  split at h
  · cases h
  · cases h
  · cases h
  · cases h
  · exact misplaced_of_stepOperand (eq_error_of_map h)

/-- What does not fit behind a statement is misplaced. -/
theorem misplaced_of_stepFinished {s : Stmt} {openings : List Opening} {body : List Stmt}
    {t : Token} {e : Error} (h : stepFinished s openings body t = .error e) :
    ∃ text, e = .misplaced t text := by
  unfold stepFinished at h
  split at h
  · cases h
  · exact misplaced_of_stepStatement h

/-- What does not fit behind a value is misplaced. -/
theorem misplaced_of_stepValue {x : Expr} {grouped : Bool} {context : Context}
    {openings : List Opening} {body : List Stmt} {t : Token} {e : Error}
    (h : stepValue x grouped context openings body t = .error e) :
    ∃ text, e = .misplaced t text := by
  unfold stepValue at h
  split at h
  · cases h
  split at h
  · split at h
    · cases h
    · exact ⟨invalidTarget, (Except.error.inj h).symm⟩
  unfold stepClose at h
  split at h
  · split at h
    · cases h
    · exact ⟨expectedParen, (Except.error.inj h).symm⟩
  · split at h
    · exact misplaced_of_stepStatement h
    · exact misplaced_of_stepFinished h

/-- An error about a token names that token and its line. -/
theorem misplaced_of_step {d : Draft} {t : Token} {e : Error} (h : d.step t = .error e) :
    ∃ text, e = .misplaced t text := by
  unfold step at h
  split at h
  · exact misplaced_of_stepStatement h
  · exact misplaced_of_stepOperand (eq_error_of_map h)
  · exact misplaced_of_stepValue h
  · exact misplaced_of_stepFinished h

/-- Where a statement is due or done, tokens that end too early are reported as such. -/
theorem unexpectedEnd_of_finishStatement {line : Nat} {openings : List Opening} {body : List Stmt}
    {e : Error} (h : finishStatement line openings body = .error e) :
    ∃ text, e = .unexpectedEnd line text := by
  unfold finishStatement at h
  split at h
  · cases h
  · exact ⟨expectedBrace, (Except.error.inj h).symm⟩
  · exact ⟨expectedExpression, (Except.error.inj h).symm⟩

/-- An error about the end names the line of the last token. -/
theorem unexpectedEnd_of_finish {d : Draft} {line : Nat} {e : Error}
    (h : d.finish line = .error e) : ∃ text, e = .unexpectedEnd line text := by
  unfold finish at h
  split at h
  · exact unexpectedEnd_of_finishStatement h
  · exact ⟨expectedExpression, (Except.error.inj h).symm⟩
  · split at h
    · exact ⟨expectedParen, (Except.error.inj h).symm⟩
    · exact ⟨expectedExpression, (Except.error.inj h).symm⟩
    · exact unexpectedEnd_of_finishStatement h
  · exact unexpectedEnd_of_finishStatement h

end Draft

namespace Cursor

/-- Reading stops at a token that does not fit, or at the end where something is missing. -/
theorem readFrom_error {d : Draft} {line : Nat} {tokens : List Token} {e : Error} {c : Cursor}
    (h : readFrom d line tokens = (.error e, c)) :
    (∃ front t rest d', tokens = front ++ t :: rest ∧ d.after? front = some d' ∧
      d'.step t = .error e ∧ c = ⟨rest, t.line⟩) ∨
    (∃ d' last, d.after? tokens = some d' ∧ d'.finish last = .error e ∧ c = ⟨[], last⟩ ∧
      last = (tokens.getLast?.map Token.line).getD line) := by
  induction tokens generalizing d line with
  | nil =>
    obtain ⟨missing, rfl⟩ := Prod.mk.inj h
    exact .inr ⟨d, line, rfl, missing, rfl, rfl⟩
  | cons t tokens ih =>
    rw [readFrom] at h
    cases stepped : d.step t with
    | error e' =>
      rw [stepped] at h
      obtain ⟨same, rfl⟩ := Prod.mk.inj h
      obtain rfl : e' = e := Except.error.inj same
      exact .inl ⟨[], t, tokens, d, rfl, rfl, stepped, rfl⟩
    | ok next =>
      rw [stepped] at h
      have after : ∀ front, d.after? (t :: front) = next.after? front := by
        intro front
        rw [Draft.after?, stepped]
      rcases ih h with ⟨front, u, rest, d', rfl, reached, stuck, rfl⟩ |
        ⟨d', last, reached, missing, rfl, same⟩
      · exact .inl ⟨t :: front, u, rest, d', rfl, (after front).trans reached, stuck, rfl⟩
      · refine .inr ⟨d', last, (after tokens).trans reached, missing, rfl, ?_⟩
        rw [same, List.getLast?_cons]
        cases tokens.getLast? <;> rfl

end Cursor

/-! ## Viable tokens -/

/-- With more tokens behind them these make a program. -/
def Viable (tokens : List Token) : Prop :=
  ∃ more p, Program.ofTokens (tokens ++ more) = .ok p

/-- Tokens that lead to a draft can be completed to a program. -/
theorem Viable.of_after? {tokens : List Token} {d : Draft}
    (h : Draft.empty.after? tokens = some d) : Viable tokens := by
  obtain ⟨more, p, completed⟩ := d.exists_completion
  refine ⟨more, p, Program.ofTokens_eq_ok_iff.mpr ?_⟩
  rw [Draft.program?_append h]
  exact completed

/-- With a token that does not fit, no tokens are viable. -/
theorem not_viable_of_step {front : List Token} {t : Token} {d : Draft} {e : Error}
    (reached : Draft.empty.after? front = some d) (stuck : d.step t = .error e) :
    ¬ Viable (front ++ [t]) := by
  rintro ⟨more, p, h⟩
  have read := Program.ofTokens_eq_ok_iff.mp h
  rw [List.append_assoc, List.singleton_append, Draft.program?_append reached,
    Draft.program?_cons_of_error stuck] at read
  cases read

/-- Errors are reported at the earliest token.  An error either names a token, the first with which
    the tokens are no longer viable, and reading stops behind it; or it names none, and then all
    tokens are viable and have been read, they are no program yet, and the line is that of the last
    one. -/
theorem Cursor.program_error_earliest (tokens : List Token) (e : Error)
    (h : (program ⟨tokens, 1⟩).1 = .error e) :
    (∃ i t text, tokens[i]? = some t ∧ e = .syntactic t.line (some t.lexeme) text ∧
      Viable (tokens.take i) ∧ ¬ Viable (tokens.take (i + 1)) ∧
      (program ⟨tokens, 1⟩).2.rest = tokens.drop (i + 1)) ∨
    (∃ last text, tokens.getLast? = some last ∧ e = .syntactic last.line none text ∧
      Viable tokens ∧ (∀ p, Program.ofTokens tokens ≠ .ok p) ∧
      (program ⟨tokens, 1⟩).2.rest = []) := by
  have whole : readFrom .empty 1 tokens = (.error e, (program ⟨tokens, 1⟩).2) :=
    Prod.ext h rfl
  rcases readFrom_error whole with ⟨front, t, rest, d, rfl, reached, stuck, stop⟩ |
    ⟨d, line, reached, missing, stop, same⟩
  · obtain ⟨text, rfl⟩ := Draft.misplaced_of_step stuck
    have split : front ++ t :: rest = (front ++ [t]) ++ rest := by
      rw [List.append_assoc, List.singleton_append]
    have length : (front ++ [t]).length = front.length + 1 := List.length_append
    -- the index is the number of tokens that did fit
    refine .inl ⟨front.length, t, text, ?_, rfl, ?_, ?_, ?_⟩
    · rw [List.getElem?_append_right (Nat.le_refl _), Nat.sub_self]
      rfl
    · rw [List.take_left]
      exact .of_after? reached
    · rw [split, ← length, List.take_left]
      exact not_viable_of_step reached stuck
    · rw [stop, split, ← length, List.drop_left]
  · obtain ⟨text, rfl⟩ := Draft.unexpectedEnd_of_finish missing
    cases last : tokens.getLast? with
    | none =>
      -- nothing is missing in an empty program
      rw [List.getLast?_eq_none_iff.mp last] at h
      cases h
    | some t =>
      rw [last] at same
      have failed : Program.ofTokens tokens = .error (.unexpectedEnd line text) := h
      refine .inr ⟨t, text, rfl, congrArg (Error.syntactic · none text) same, .of_after? reached,
        ?_, by rw [stop]⟩
      intro p accepted
      rw [failed] at accepted
      cases accepted

/-- In `(x) = y` the sign does not fit, and neither does any continuation, while `(x)` is fine. -/
theorem Cursor.program_error_of_grouped_target :
    (program ⟨[⟨.leftParen, "(", 1⟩, ⟨.identifier, "x", 1⟩, ⟨.rightParen, ")", 1⟩,
      ⟨.equal, "=", 2⟩, ⟨.identifier, "y", 2⟩], 1⟩).1 =
        .error (.syntactic 2 (some "=") "Invalid assignment target.") ∧
    Viable [⟨.leftParen, "(", 1⟩, ⟨.identifier, "x", 1⟩, ⟨.rightParen, ")", 1⟩] ∧
    ¬ Viable [⟨.leftParen, "(", 1⟩, ⟨.identifier, "x", 1⟩, ⟨.rightParen, ")", 1⟩,
      ⟨.equal, "=", 2⟩] := by
  refine ⟨rfl, ?_⟩
  rcases program_error_earliest [⟨.leftParen, "(", 1⟩, ⟨.identifier, "x", 1⟩,
      ⟨.rightParen, ")", 1⟩, ⟨.equal, "=", 2⟩, ⟨.identifier, "y", 2⟩] _ rfl with
    ⟨i, t, text, _, _, viable, stuck, stop⟩ | ⟨_, _, _, no, _⟩
  · obtain rfl : i = 3 := by
      have left : 1 = 5 - (i + 1) := (congrArg List.length stop).trans List.length_drop
      omega
    exact ⟨viable, stuck⟩
  · exact absurd (Error.syntactic.inj no).2.1 nofun

end NumScript
