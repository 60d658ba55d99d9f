/-
  Texts that are joined.

  Cutting a text into pieces carries nothing but the pending piece from one character to the next.
  At a BOUNDARY, a character that belongs to no longer piece, not even that is carried: what stands
  before and what stands behind are cut on their own, and only the lines behind go on counting
  (`Source.itemsFrom_pieces_append`).  So the tokens of a joined text are those of its two halves
  (`Source.tokens_append_blank`).

  Programs need no separator either.  Whatever ends a program, the token that begins another one is
  neither an operator nor an `=` nor an `else`, and so it closes everything that is still open
  (`Draft.program?_of_finish`).  Hence the tokens of two programs, one behind the other, make the
  statements of the one and then those of the other (`Program.ofTokens_append`), and the same goes
  for texts (`Program.ofSource_append_newline`).
-/
import NumScript.Proofs.EarliestError
import NumScript.Proofs.ParserExactness
import NumScript.Proofs.Relabelling
import NumScript.Proofs.Segmentation

namespace NumScript

namespace Source

/-! ## Boundaries -/

/-- The character is a piece of its own wherever it stands. -/
def isBoundary (c : Char) : Bool :=
  !c.isAlphanum && c ≠ '.' && c ≠ '='

/-- What separates tokens is a boundary. -/
theorem isBoundary_of_isSkipped {c : Char} (h : isSkipped c = true) : isBoundary c = true := by
  simp only [isSkipped, Bool.or_eq_true, decide_eq_true_eq] at h
  rcases h with (rfl | rfl) | rfl <;> decide

/-- A boundary is neither a letter, nor a digit, nor a sign that can be part of a longer piece. -/
theorem not_of_isBoundary {c : Char} (h : isBoundary c = true) :
    c.isAlpha = false ∧ c.isDigit = false ∧ c ≠ '.' ∧ c ≠ '=' := by
  simp only [isBoundary, Bool.and_eq_true, Bool.not_eq_true', decide_eq_true_eq] at h
  obtain ⟨⟨noWord, noPoint⟩, noSign⟩ := h
  have both : (c.isAlpha || c.isDigit) = false := noWord
  obtain ⟨noLetter, noDigit⟩ := Bool.or_eq_false_iff.mp both
  exact ⟨noLetter, noDigit, noPoint, noSign⟩

/-- No piece that begins with a boundary is longer than the boundary itself. -/
theorem isLongest_of_isBoundary {c : Char} (h : isBoundary c = true) (after : List Char) :
    (Piece.single c).IsLongest after := by
  obtain ⟨noLetter, noDigit, _, noSign⟩ := not_of_isBoundary h
  exact ⟨noLetter, noDigit, noSign⟩

/-- A boundary continues no piece. -/
theorem Pending.extend?_of_isBoundary {c : Char} (h : isBoundary c = true) (p : Pending) :
    p.extend? c = none := by
  obtain ⟨noLetter, noDigit, noPoint, noSign⟩ := not_of_isBoundary h
  have noWord : c.isAlphanum = false := by rw [Char.isAlphanum, noLetter, noDigit]; rfl
  cases p <;> simp [extend?, noWord, noDigit, noPoint, noSign]

/-- A boundary is a piece that is done as soon as it begins. -/
theorem Pending.start_of_isBoundary {c : Char} (h : isBoundary c = true) :
    start c = .done (.single c) := by
  obtain ⟨noLetter, noDigit, _, noSign⟩ := not_of_isBoundary h
  simp [start, noLetter, noDigit, noSign]

/-- Behind a piece to which nothing can be added a text is cut as if it began there. -/
theorem piecesFrom_done (piece : Piece) (text : List Char) :
    piecesFrom (.done piece) text = piece :: pieces text := by
  cases text with
  | nil => rfl
  | cons c rest => rfl

/-- A boundary cuts a text in two. -/
theorem piecesFrom_append {c : Char} (h : isBoundary c = true) (p : Pending)
    (before after : List Char) :
    piecesFrom p (before ++ c :: after) = piecesFrom p before ++ .single c :: pieces after := by
  induction before generalizing p with
  | nil =>
    rw [List.nil_append, piecesFrom, piecesFrom, Pending.extend?_of_isBoundary h,
      Pending.start_of_isBoundary h]
    exact congrArg (p.finish ++ ·) (piecesFrom_done (.single c) after)
  | cons d rest ih =>
    rw [List.cons_append, piecesFrom, piecesFrom]
    split
    · exact ih _
    · rw [ih, List.append_assoc]

/-! ## Lines -/

/-- The item on another line. -/
def Item.reline (line : Nat → Nat) : Item → Item :=
  (Relabelling.lines line).result (Token.reline line)

/-- On another line a piece gives the same item, only moved. -/
theorem Piece.item?_reline (piece : Piece) (f : Nat → Nat) (line : Nat) :
    piece.item? (f line) = (piece.item? line).map (Item.reline f) := by
  cases piece with
  | single c =>
    simp only [item?]
    split
    · rfl
    · split <;> rfl
  | _ => rfl

/-- Items that stand further down are the same on other lines. -/
theorem itemsFrom_add (pieces : List Piece) (line n : Nat) :
    itemsFrom (line + n) pieces = (itemsFrom line pieces).map (Item.reline (· + n)) := by
  induction pieces generalizing line with
  | nil => rfl
  | cons piece rest ih =>
    have next : line + n + piece.lineEnds = line + piece.lineEnds + n := by omega
    have here := piece.item?_reline (· + n) line
    rw [itemsFrom, itemsFrom, next, ih, here, List.map_append]
    cases piece.item? line <;> rfl

/-- Behind some pieces come the items of the others, on the lines that go on from the text of the
    first. -/
theorem itemsFrom_append {pieces : List Piece} {after : List Char}
    (h : Piece.AllLongest pieces after) (pieces' : List Piece) (line : Nat) :
    itemsFrom line (pieces ++ pieces') =
      itemsFrom line pieces ++
        itemsFrom (line + (pieces.flatMap Piece.text).count '\n') pieces' := by
  induction pieces generalizing line with
  | nil => rfl
  | cons piece rest ih =>
    rw [List.cons_append, itemsFrom, itemsFrom, ih h.2, List.append_assoc, List.flatMap_cons,
      List.count_append, Piece.count_text h.1, Nat.add_assoc]

/-! ## Items and tokens -/

/-- At a boundary a text is cut in two, and the items behind it are those of the second half, on
    the lines that go on from the first. -/
theorem itemsFrom_pieces_append {c : Char} (h : isBoundary c = true) (before after : List Char) :
    itemsFrom 1 (pieces (before ++ c :: after)) =
      itemsFrom 1 (pieces before) ++
        (((Piece.single c).item? (1 + before.count '\n')).toList ++
          (itemsFrom 1 (pieces after)).map
            (Item.reline (· + (before ++ [c]).count '\n'))) := by
  have ends : [c].count '\n' = (Piece.single c).lineEnds :=
    Piece.count_text (isLongest_of_isBoundary h [])
  show itemsFrom 1 (piecesFrom .nothing (before ++ c :: after)) = _
  rw [piecesFrom_append h]
  show itemsFrom 1 (pieces before ++ .single c :: pieces after) = _
  have longest : Piece.AllLongest (pieces before) [] :=
    allLongest_piecesFrom (p := .nothing) trivial before
  rw [itemsFrom_append longest, flatMap_text_pieces, itemsFrom, ← ends, Nat.add_assoc,
    ← List.count_append, itemsFrom_add]

theorem ofSign?_of_isSkipped {c : Char} (h : isSkipped c = true) : TokenKind.ofSign? c = none := by
  simp only [isSkipped, Bool.or_eq_true, decide_eq_true_eq] at h
  rcases h with (rfl | rfl) | rfl <;> rfl

theorem Piece.item?_of_isSkipped {c : Char} (h : isSkipped c = true) (line : Nat) :
    (Piece.single c).item? line = none := by
  rw [item?, ofSign?_of_isSkipped h]
  exact if_pos h

/-- Items have tokens if they are tokens, and then these. -/
theorem tokensOf_eq_ok_iff {items : List Item} {tokens : List Token} :
    tokensOf items = .ok tokens ↔ items = tokens.map .ok := by
  induction items generalizing tokens with
  | nil =>
    cases tokens with
    | nil => exact iff_of_true rfl rfl
    | cons => exact iff_of_false nofun nofun
  | cons item rest ih =>
    cases item with
    | error e =>
      refine iff_of_false nofun ?_
      cases tokens <;> nofun
    | ok t =>
      rw [tokensOf]
      constructor
      · intro h
        cases others : tokensOf rest with
        | error e =>
          rw [others] at h
          cases h
        | ok more =>
          rw [others] at h
          cases h
          rw [ih.mp others]
          rfl
      · intro h
        cases tokens with
        | nil => cases h
        | cons first more =>
          obtain ⟨same, others⟩ := List.cons.inj h
          rw [ih.mpr others, Except.ok.inj same]
          rfl

/-- Where all items are tokens, those of a joined list are joined. -/
theorem tokensOf_append {items items' : List Item} {tokens tokens' : List Token}
    (first : tokensOf items = .ok tokens) (second : tokensOf items' = .ok tokens') :
    tokensOf (items ++ items') = .ok (tokens ++ tokens') := by
  rw [tokensOf_eq_ok_iff] at first second ⊢
  rw [first, second, List.map_append]

/-- Relabelled items have relabelled tokens, or the relabelled error. -/
theorem tokensOf_map (m : Relabelling) (items : List Item) :
    tokensOf (items.map (m.result m.token)) = m.result (List.map m.token) (tokensOf items) := by
  induction items with
  | nil => rfl
  | cons item rest ih =>
    cases item with
    | error e => rfl
    | ok t =>
      show (tokensOf (rest.map (m.result m.token))).map _ = _
      rw [ih, tokensOf]
      cases tokensOf rest <;> rfl

/-- The tokens of moved items are the moved tokens, and the error of moved items is the moved error.
    -/
theorem tokensOf_reline (line : Nat → Nat) (items : List Item) :
    tokensOf (items.map (Item.reline line)) =
      (Relabelling.lines line).result (List.map (Token.reline line)) (tokensOf items) :=
  tokensOf_map (Relabelling.lines line) items

/-- The tokens of two texts with a blank between them are those of the one and then those of the
    other, on the lines that go on. -/
theorem tokens_append_blank {c : Char} (blank : isSkipped c = true) {a b : String}
    {ts us : List Token} (first : tokens a = .ok ts) (second : tokens b = .ok us) :
    tokens (a ++ c.toString ++ b) =
      .ok (ts ++ us.map (Token.reline (· + (a.toList ++ [c]).count '\n'))) := by
  have text : (a ++ c.toString ++ b).toList = a.toList ++ c :: b.toList := by
    simp
  unfold tokens items at first second ⊢
  rw [text, itemsFrom_pieces_append (isBoundary_of_isSkipped blank),
    Piece.item?_of_isSkipped blank]
  refine tokensOf_append first ?_
  show tokensOf (List.map _ _) = _
  rw [tokensOf_reline, second]
  rfl

end Source

/-! ## Drafts that could be ended -/

namespace Draft

/-- Tokens that make a program lead to a draft that is one. -/
theorem exists_after? {d : Draft} {tokens : List Token} {p : Program}
    (h : d.program? tokens = some p) :
    ∃ d', d.after? tokens = some d' ∧ d'.program? [] = some p := by
  induction tokens generalizing d with
  | nil => exact ⟨d, rfl, h⟩
  | cons t rest ih =>
    obtain ⟨next, stepped, more⟩ := step_of_program? h
    obtain ⟨d', reached, ended⟩ := ih more
    refine ⟨d', ?_, ended⟩
    rw [after?, stepped]
    exact reached

/-- A draft that is a program as it stands goes on like one between two statements, if what comes
    next begins a statement. -/
theorem program?_of_finish {d : Draft} {p : Program} {after : List Token}
    (h : d.program? [] = some p) (stops : Stops 1 after) (noElse : NoElse after) :
    d.program? after = program? ⟨.statement, [], p.body.reverse⟩ after := by
  -- only a draft without open constructs is a program between two statements
  have between (openings : List Opening) (body : List Stmt)
      (ended : (finishStatement 1 openings body).toOption = some p) :
      openings = [] ∧ body = p.body.reverse := by
    cases openings with
    | nil =>
      cases ended
      exact ⟨rfl, (List.reverse_reverse body).symm⟩
    | cons opening outer => cases opening <;> cases ended
  -- behind a complete statement what comes next adds it
  have finished (s : Stmt) (openings : List Opening) (body : List Stmt)
      (ended : (finishAfter 1 s openings body).toOption = some p) :
      program? ⟨.finished s, openings, body⟩ after =
        program? ⟨.statement, [], p.body.reverse⟩ after := by
    have focus : (add s openings body).focus = .statement := by
      unfold add
      split <;> rfl
    obtain ⟨noOpenings, sameBody⟩ := between _ _ ended
    rw [program?_finished fun t mem kind => absurd kind (noElse t mem)]
    exact congrArg (program? · after) (by rw [← noOpenings, ← sameBody, ← focus])
  obtain ⟨focus, openings, body⟩ := d
  rw [program?_nil] at h
  cases focus with
  | statement =>
    obtain ⟨rfl, rfl⟩ := between openings body h
    rfl
  | operand context => cases h
  | finished s => exact finished s openings body h
  | value e grouped context =>
    obtain ⟨condition, holes⟩ := context
    unfold finish at h
    cases closed : Hole.closeAll e holes with
    | mk whole outer =>
      simp only [closed] at h
      cases outer with
      | some outer => cases h
      | none =>
        cases condition with
        | some keyword => cases h
        | none =>
          rw [program?_expression grouped closed stops]
          exact finished (.expression whole) openings body h

end Draft

namespace Program

open Draft Grammar

/-- The tokens of two programs, one behind the other, make the statements of both in order. -/
theorem ofTokens_append {ts us : List Token} {p q : Program} (first : ofTokens ts = .ok p)
    (second : ofTokens us = .ok q) : ofTokens (ts ++ us) = .ok ⟨p.body ++ q.body⟩ := by
  obtain ⟨statements, rfl, meant, rfl⟩ := exists_isMeant_tree second
  obtain ⟨prints, nearest⟩ := (Statement.isMeant_iff statements).mp meant
  obtain ⟨d, reached, ended⟩ := exists_after? (ofTokens_eq_ok_iff.mp first)
  -- a statement begins with no token that could go on with the first program
  obtain ⟨stops, noElse⟩ := Stops.tokensAll statements .nil
  rw [List.append_nil] at stops noElse
  refine ofTokens_eq_ok_iff.mpr ?_
  rw [program?_append reached, program?_of_finish ended stops noElse,
    Statement.program?_program statements _ prints nearest, List.reverse_reverse]

/-- A text is a program just if it has tokens and these are the program. -/
theorem ofSource_eq_ok_iff {a : String} {p : Program} :
    ofSource a = .ok p ↔ ∃ tokens, Source.tokens a = .ok tokens ∧ ofTokens tokens = .ok p := by
  unfold ofSource
  cases Source.tokens a with
  | error e => exact ⟨nofun, fun ⟨_, cut, _⟩ => nomatch cut⟩
  | ok tokens =>
    constructor
    · intro made
      exact ⟨tokens, rfl, made⟩
    · rintro ⟨_, cut, made⟩
      cases cut
      exact made

/-- Two texts with a blank between them make the statements of both in order. -/
theorem ofSource_append_blank {c : Char} (blank : Source.isSkipped c = true) {a b : String}
    {p q : Program} (first : ofSource a = .ok p) (second : ofSource b = .ok q) :
    ofSource (a ++ c.toString ++ b) =
      .ok ⟨p.body ++ (q.reline (· + (a.toList ++ [c]).count '\n')).body⟩ := by
  obtain ⟨ts, cut, made⟩ := ofSource_eq_ok_iff.mp first
  obtain ⟨us, cut', made'⟩ := ofSource_eq_ok_iff.mp second
  refine ofSource_eq_ok_iff.mpr ⟨_, Source.tokens_append_blank blank cut cut', ?_⟩
  refine ofTokens_append made ?_
  rw [show Token.reline _ = (Relabelling.lines _).token from rfl, Relabelling.ofTokens_map, made']
  rfl

theorem count_append_newline (a : String) :
    (a.toList ++ ['\n']).count '\n' = 1 + a.toList.count '\n' := by
  rw [List.count_append, Nat.add_comm]
  rfl

/-- Joining texts joins programs.  A text, a line end and another text make the statements of the
    first text and then those of the second, which stand as many lines further down as the first
    text has, and are otherwise unchanged. -/
theorem ofSource_append_newline {a b : String} {p q : Program} (first : ofSource a = .ok p)
    (second : ofSource b = .ok q) :
    ofSource (a ++ "\n" ++ b) =
      .ok ⟨p.body ++ (q.reline (· + (1 + a.toList.count '\n'))).body⟩ := by
  rw [← count_append_newline]
  exact ofSource_append_blank (c := '\n') rfl first second

/-- An assignment on a line behind an `if` without `else` is a statement of its own, on line 3. -/
theorem ofSource_three_lines :
    ofSource "if x\nhalt" = .ok ⟨[.ifThen ⟨.ifWord, "if", 1⟩ (.var ⟨.identifier, "x", 1⟩)
      (.halt ⟨.haltWord, "halt", 2⟩)]⟩ ∧
    ofSource "y = x" = .ok ⟨[.expression (.assign ⟨.identifier, "y", 1⟩
      (.var ⟨.identifier, "x", 1⟩))]⟩ ∧
    ofSource ("if x\nhalt" ++ "\n" ++ "y = x") =
      .ok ⟨[.ifThen ⟨.ifWord, "if", 1⟩ (.var ⟨.identifier, "x", 1⟩)
          (.halt ⟨.haltWord, "halt", 2⟩),
        .expression (.assign ⟨.identifier, "y", 3⟩ (.var ⟨.identifier, "x", 3⟩))]⟩ :=
  have first : ofSource "if x\nhalt" = .ok ⟨[.ifThen ⟨.ifWord, "if", 1⟩
      (.var ⟨.identifier, "x", 1⟩) (.halt ⟨.haltWord, "halt", 2⟩)]⟩ := rfl
  have second : ofSource "y = x" = .ok ⟨[.expression (.assign ⟨.identifier, "y", 1⟩
      (.var ⟨.identifier, "x", 1⟩))]⟩ := rfl
  ⟨first, second, ofSource_append_newline first second⟩

end Program

end NumScript
