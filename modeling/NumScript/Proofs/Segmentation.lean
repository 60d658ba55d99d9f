/-
  Every source text is cut into tokens, blanks and characters that begin no token.

  A SEGMENT is a part of the text: the lexeme of a token, a single character that is skipped, or a
  single character that is an error.  The segments put side by side are the text, and the items are
  what the segments stand for, so nothing is lost or read twice, whatever the errors
  (`items_segments`).  Each segment fits its place (`Segment.Fits`): it has the right line, a token
  has the kind that its whole lexeme spells, and no token could have gone on.

  Whether a token could have gone on is decided by the text behind it.  The fold that cuts the text
  sees one character of that at a time, and keeps a number waiting behind a point; the invariant is
  that what is pending has been begun rightly (`Pending.IsBegun`), so that a character that does not
  extend it ends it where it has to end (`Pending.allLongest_finish`).
-/
import NumScript.Proofs.Lexicon

namespace NumScript

/-! ## Segments -/

/-- The token could not have gone on, `after` being the text behind it. -/
structure Token.IsLongest (t : Token) (after : List Char) : Prop where
  /-- No letter or digit follows a name or a keyword. -/
  word : Lexicon.isName t.lexeme.toList = true → ∀ c ∈ after.head?, c.isAlphanum = false
  /-- A number has all its digits, and the fraction behind them if there is one. -/
  number : ∀ value, t.kind = .number value →
    Lexicon.leadingNumeral (t.lexeme.toList ++ after) = t.lexeme.toList
  /-- No other equality sign follows a single one. -/
  equal : t.kind = .equal → after.head? ≠ some '='

namespace Source

/-- A part of a source text. -/
inductive Segment where
  /-- The lexeme of a token. -/
  | token (t : Token)
  /-- A character on this line that begins no token. -/
  | unrecognised (line : Nat) (c : Char)
  /-- A character that means nothing. -/
  | skipped (c : Char)

namespace Segment

/-- The characters of a segment. -/
def text : Segment → List Char
  | token t => t.lexeme.toList
  | unrecognised _ c => [c]
  | skipped c => [c]

/-- What a segment is read as. -/
def item? : Segment → Option Item
  | token t => some (.ok t)
  | unrecognised line c => some (.error (.unexpectedCharacter line c))
  | skipped _ => none

/-- A segment between these texts is what it has to be. -/
def Fits (before after : List Char) : Segment → Prop
  | token t =>
    t.line = 1 + before.count '\n' ∧ Lexicon.kind? t.lexeme = some t.kind ∧ t.IsLongest after
  | unrecognised line c =>
    line = 1 + before.count '\n' ∧ c ∉ [' ', '\t', '\n'] ∧
      ∀ rest, Lexicon.kind? (String.ofList (c :: rest)) = none
  | skipped c => c ∈ [' ', '\t', '\n']

end Segment

/-! ## Pieces are as long as they can be -/

/-- The piece is what its kind says and could not have gone on. -/
def Piece.IsLongest : Piece → List Char → Prop
  | .word letters, after =>
    ∃ c rest, letters = c :: rest ∧ c.isAlpha = true ∧ (∀ d ∈ rest, d.isAlphanum = true) ∧
      ∀ d ∈ after.head?, d.isAlphanum = false
  | .number whole fraction, after =>
    whole ≠ [] ∧ (∀ c ∈ whole, c.isDigit = true) ∧ (∀ c ∈ fraction, c.isDigit = true) ∧
      (∀ c ∈ after.head?, c.isDigit = false) ∧
      (fraction = [] → Lexicon.leadingFraction after = [])
  | .equal, after => after.head? ≠ some '='
  | .equalEqual, _ => True
  | .single c, _ => c.isAlpha = false ∧ c.isDigit = false ∧ c ≠ '='

/-- The same of every one of some pieces, which stand side by side. -/
def Piece.AllLongest : List Piece → List Char → Prop
  | [], _ => True
  | piece :: rest, after =>
    piece.IsLongest (rest.flatMap Piece.text ++ after) ∧ AllLongest rest after

theorem Piece.allLongest_append {pieces pieces' : List Piece} {after : List Char}
    (first : AllLongest pieces (pieces'.flatMap Piece.text ++ after))
    (second : AllLongest pieces' after) : AllLongest (pieces ++ pieces') after := by
  induction pieces with
  | nil => exact second
  | cons piece rest ih =>
    obtain ⟨longest, others⟩ := first
    have behind : (rest ++ pieces').flatMap Piece.text ++ after =
        rest.flatMap Piece.text ++ (pieces'.flatMap Piece.text ++ after) := by
      rw [List.flatMap_append, List.append_assoc]
    exact ⟨behind ▸ longest, ih others⟩

namespace Pending

/-- What has been read of a piece can be the beginning of one. -/
def IsBegun : Pending → Prop
  | .nothing => True
  | .word letters =>
    ∃ c rest, letters.reverse = c :: rest ∧ c.isAlpha = true ∧ ∀ d ∈ rest, d.isAlphanum = true
  | .digits whole => whole ≠ [] ∧ ∀ c ∈ whole, c.isDigit = true
  | .point whole => whole ≠ [] ∧ ∀ c ∈ whole, c.isDigit = true
  | .fraction whole last between =>
    whole ≠ [] ∧ (∀ c ∈ whole, c.isDigit = true) ∧ ∀ c ∈ last :: between, c.isDigit = true
  | .equal => True
  | .done piece => ∀ after, piece.IsLongest after

theorem isBegun_start (c : Char) : (start c).IsBegun := by
  unfold start
  split
  · exact ⟨c, [], rfl, ‹_›, fun _ no => nomatch no⟩
  · split
    · refine ⟨List.cons_ne_nil c [], ?_⟩
      rintro d mem
      rw [List.mem_singleton.mp mem]
      assumption
    · split
      · trivial
      · intro _
        exact ⟨Bool.eq_false_iff.mpr ‹_›, Bool.eq_false_iff.mpr ‹_›, ‹_›⟩

/-- A character that belongs to what has been begun goes on with it. -/
theorem isBegun_of_extend? {p q : Pending} {c : Char} (begun : p.IsBegun)
    (h : p.extend? c = some q) : q.IsBegun := by
  cases p with
  | nothing => cases h
  | word letters =>
    obtain ⟨first, rest, split, letter, others⟩ := begun
    simp only [extend?] at h
    split at h <;> cases h
    refine ⟨first, rest ++ [c], ?_, letter, ?_⟩
    · rw [List.reverse_cons, split, List.cons_append]
    · intro d mem
      rcases List.mem_append.mp mem with old | new
      · exact others d old
      · rw [List.mem_singleton.mp new]
        assumption
  | digits whole =>
    simp only [extend?] at h
    split at h
    · cases h
      exact ⟨List.cons_ne_nil c whole, List.forall_mem_cons.mpr ⟨‹_›, begun.2⟩⟩
    · split at h <;> cases h
      exact begun
  | point whole =>
    simp only [extend?] at h
    split at h <;> cases h
    exact ⟨begun.1, begun.2, List.forall_mem_cons.mpr ⟨‹_›, fun _ no => nomatch no⟩⟩
  | fraction whole last between =>
    simp only [extend?] at h
    split at h <;> cases h
    exact ⟨begun.1, begun.2.1, List.forall_mem_cons.mpr ⟨‹_›, begun.2.2⟩⟩
  | equal =>
    simp only [extend?] at h
    split at h <;> cases h
    intro _
    trivial
  | done piece => cases h

/-- A character that did not go on with a piece has failed the test for it. -/
theorem eq_false_of_stuck {test : Bool} {longer : Pending}
    (h : (if test = true then some longer else none) = none) : test = false := by
  split at h
  · cases h
  · exact Bool.eq_false_iff.mpr ‹_›

/-- Digits are kept latest first. -/
theorem digits_reverse {digits : List Char} (digits_ne : digits ≠ [])
    (h : ∀ c ∈ digits, c.isDigit = true) :
    digits.reverse ≠ [] ∧ ∀ c ∈ digits.reverse, c.isDigit = true := by
  constructor
  · intro no
    exact digits_ne (List.reverse_eq_nil_iff.mp no)
  · intro c mem
    exact h c (List.mem_reverse.mp mem)

/-- Where the next character does not belong to what has been begun, that ends as it has to. -/
theorem allLongest_finish {p : Pending} {after : List Char} (begun : p.IsBegun)
    (h : ∀ c ∈ after.head?, p.extend? c = none) : Piece.AllLongest p.finish after := by
  cases p with
  | nothing => trivial
  | word letters =>
    obtain ⟨first, rest, split, letter, others⟩ := begun
    have stops : ∀ c ∈ after.head?, c.isAlphanum = false := by
      intro c mem
      exact eq_false_of_stuck (h c mem)
    exact ⟨⟨first, rest, split, letter, others, stops⟩, trivial⟩
  | digits whole =>
    -- a point would have been taken, so neither a digit nor a point follows
    have stops : ∀ c ∈ after.head?, c.isDigit = false ∧ c ≠ '.' := by
      intro c mem
      have stuck := h c mem
      simp only [extend?] at stuck
      split at stuck
      · cases stuck
      · split at stuck
        · cases stuck
        · exact ⟨Bool.eq_false_iff.mpr ‹_›, ‹_›⟩
    have noFraction : Lexicon.leadingFraction after = [] := by
      unfold Lexicon.leadingFraction
      split
      · exact absurd rfl (stops '.' rfl).2
      · rfl
    obtain ⟨whole_ne, digits⟩ := digits_reverse begun.1 begun.2
    exact ⟨⟨whole_ne, digits, (fun _ no => nomatch no), fun c mem => (stops c mem).1,
      fun _ => noFraction⟩, trivial⟩
  | point whole =>
    have stops : ∀ c ∈ after.head?, c.isDigit = false := by
      intro c mem
      exact eq_false_of_stuck (h c mem)
    -- the point stays behind because no digit follows it
    have noFraction : Lexicon.leadingFraction ('.' :: after) = [] := by
      unfold Lexicon.leadingFraction
      split
      · rename_i d rest same
        obtain ⟨_, rfl⟩ := List.cons.inj same
        rw [stops d rfl]
        rfl
      · rfl
    have point : ∀ c ∈ ('.' :: after).head?, c.isDigit = false := by
      rintro _ ⟨⟩
      rfl
    obtain ⟨whole_ne, digits⟩ := digits_reverse begun.1 begun.2
    exact ⟨⟨whole_ne, digits, (fun _ no => nomatch no), point, fun _ => noFraction⟩,
      ⟨rfl, rfl, by decide⟩, trivial⟩
  | fraction whole last between =>
    have stops : ∀ c ∈ after.head?, c.isDigit = false := by
      intro c mem
      exact eq_false_of_stuck (h c mem)
    obtain ⟨whole_ne, digits⟩ := digits_reverse begun.1 begun.2.1
    obtain ⟨fraction_ne, digits'⟩ := digits_reverse (List.cons_ne_nil last between) begun.2.2
    exact ⟨⟨whole_ne, digits, digits', stops, fun no => absurd no fraction_ne⟩, trivial⟩
  | equal =>
    refine ⟨?_, trivial⟩
    intro again
    cases h '=' again
  | done piece => exact ⟨begun _, trivial⟩

end Pending

/-- Whatever has been begun, the text is cut into pieces none of which could have gone on. -/
theorem allLongest_piecesFrom {p : Pending} (begun : p.IsBegun) (text : List Char) :
    Piece.AllLongest (piecesFrom p text) [] := by
  induction text generalizing p with
  | nil => exact Pending.allLongest_finish begun fun _ no => nomatch no
  | cons c rest ih =>
    rw [piecesFrom]
    split
    · exact ih (Pending.isBegun_of_extend? begun ‹_›)
    · rename_i stuck
      refine Piece.allLongest_append (Pending.allLongest_finish begun ?_)
        (ih (Pending.isBegun_start c))
      rw [flatMap_text_piecesFrom, Pending.flatMap_text_finish_start]
      rintro _ ⟨⟩
      exact stuck

-- A point belongs to a number only between digits, and only once.
example : pieces "a1.5.2=3.".toList =
    [.word ['a', '1'], .single '.', .number ['5'] ['2'], .equal, .number ['3'] [],
      .single '.'] := by
  decide

/-! ## From pieces to segments -/

/-- Nothing but a line end of its own ends a line. -/
theorem Piece.count_text {piece : Piece} {after : List Char} (h : piece.IsLongest after) :
    piece.text.count '\n' = piece.lineEnds := by
  have noDigit : ∀ {digits : List Char}, (∀ c ∈ digits, c.isDigit = true) →
      '\n' ∉ digits := fun digits mem => by cases digits '\n' mem
  cases piece with
  | word letters =>
    obtain ⟨c, rest, rfl, letter, others, _⟩ := h
    rw [lineEnds, if_neg nofun, List.count_eq_zero]
    intro mem
    rcases List.mem_cons.mp mem with rfl | mem
    · cases letter
    · cases others '\n' mem
  | number whole fraction =>
    obtain ⟨_, digits, digits', _, _⟩ := h
    rw [lineEnds, if_neg nofun, List.count_eq_zero]
    cases fraction with
    | nil => exact noDigit digits
    | cons d more =>
      intro mem
      rcases List.mem_append.mp mem with mem | mem
      · exact noDigit digits mem
      · rcases List.mem_cons.mp mem with no | mem
        · cases no
        · exact noDigit digits' mem
  | equal => rfl
  | equalEqual => rfl
  | single c =>
    by_cases lineEnd : c = '\n'
    · rw [lineEnd]
      rfl
    · rw [lineEnds, if_neg fun same => lineEnd (Piece.single.inj same), List.count_eq_zero]
      intro mem
      exact lineEnd (List.mem_singleton.mp mem).symm

/-- A piece at its place is a segment that fits. -/
theorem Piece.exists_segment {piece : Piece} (before : List Char) {after : List Char}
    (h : piece.IsLongest after) : ∃ segment : Segment, segment.text = piece.text ∧
      segment.item? = piece.item? (1 + before.count '\n') ∧ segment.Fits before after := by
  cases piece with
  | word letters =>
    obtain ⟨c, rest, rfl, letter, others, stops⟩ := h
    refine ⟨.token ⟨.ofWord (String.ofList (c :: rest)), String.ofList (c :: rest), _⟩,
      String.toList_ofList, rfl, rfl, Lexicon.kind?_word letter others, fun _ => stops, ?_, ?_⟩
    · intro value no
      exact absurd no (TokenKind.ofWord_ne_number _ value)
    · intro no
      exact absurd no (TokenKind.ofWord_ne_equal _)
  | number whole fraction =>
    obtain ⟨whole_ne, digits, digits', stops, noFraction⟩ := h
    refine ⟨.token ⟨.number (Numeral.ofDigits whole fraction),
        String.ofList (Piece.number whole fraction).text, _⟩,
      String.toList_ofList, rfl, rfl, Lexicon.kind?_number whole_ne digits digits', ?_, ?_, nofun⟩
    · intro name
      obtain ⟨c, rest, text, digit⟩ := Lexicon.exists_text fraction whole_ne digits
      rw [String.toList_ofList, text, Lexicon.isName_of_isDigit digit rest] at name
      cases name
    · intro _ _
      rw [String.toList_ofList]
      exact Lexicon.leadingNumeral_text digits digits' stops noFraction
  | equal =>
    refine ⟨.token ⟨.equal, String.ofList ['='], _⟩, String.toList_ofList, rfl, rfl, rfl, ?_⟩
    refine ⟨?_, nofun, fun _ => h⟩
    intro name
    rw [String.toList_ofList] at name
    cases name
  | equalEqual =>
    refine ⟨.token ⟨.equalEqual, String.ofList ['=', '='], _⟩, String.toList_ofList, rfl, rfl,
      rfl, ?_⟩
    refine ⟨?_, nofun, nofun⟩
    intro name
    rw [String.toList_ofList] at name
    cases name
  | single c =>
    obtain ⟨letter, digit, noEqual⟩ := h
    cases sign : TokenKind.ofSign? c with
    | some kind =>
      refine ⟨.token ⟨kind, String.ofList [c], _⟩, String.toList_ofList, ?_, rfl,
        Lexicon.kind?_sign sign, ?_, ?_, ?_⟩
      · rw [item?, sign]
        rfl
      · intro name
        rw [String.toList_ofList, Lexicon.isName, letter] at name
        cases name
      · rintro value rfl
        exact absurd sign (TokenKind.ofSign?_ne_number c value)
      · rintro rfl
        exact absurd sign (TokenKind.ofSign?_ne_equal c)
    | none =>
      have blanks : isSkipped c = true ↔ c ∈ [' ', '\t', '\n'] := by
        simp only [isSkipped, Bool.or_eq_true, decide_eq_true_eq, List.mem_cons,
          List.not_mem_nil, or_false, or_assoc]
      by_cases blank : isSkipped c = true
      · refine ⟨.skipped c, rfl, ?_, ?_⟩
        · rw [item?, sign]
          exact (if_pos blank).symm
        · exact blanks.mp blank
      · refine ⟨.unrecognised _ c, rfl, ?_, rfl, ?_,
          Lexicon.kind?_eq_none letter digit sign noEqual⟩
        · rw [item?, sign]
          exact (if_neg blank).symm
        · exact fun mem => blank (blanks.mpr mem)

/-- Pieces that stand side by side are segments that fit, in the same order. -/
theorem exists_segments {pieces : List Piece} (before : List Char)
    (h : Piece.AllLongest pieces []) : ∃ segments : List Segment,
      segments.flatMap Segment.text = pieces.flatMap Piece.text ∧
      itemsFrom (1 + before.count '\n') pieces = segments.filterMap Segment.item? ∧
      ∀ front segment behind, segments = front ++ segment :: behind →
        segment.Fits (before ++ front.flatMap Segment.text) (behind.flatMap Segment.text) := by
  induction pieces generalizing before with
  | nil =>
    refine ⟨[], rfl, rfl, ?_⟩
    intro front segment behind no
    cases front <;> cases no
  | cons piece rest ih =>
    obtain ⟨longest, others⟩ := h
    obtain ⟨segment, text, item, fits⟩ := Piece.exists_segment before longest
    obtain ⟨segments, texts, items, fit⟩ := ih (before ++ piece.text) others
    refine ⟨segment :: segments, ?_, ?_, ?_⟩
    · rw [List.flatMap_cons, List.flatMap_cons, text, texts]
    · -- the pieces behind stand on the line that this one ends on
      have line : 1 + (before ++ piece.text).count '\n' =
          1 + before.count '\n' + piece.lineEnds := by
        rw [List.count_append, Piece.count_text longest, Nat.add_assoc]
      rw [itemsFrom, ← line, items, ← item]
      cases read : segment.item? with
      | none => rw [List.filterMap_cons_none read]; rfl
      | some item => rw [List.filterMap_cons_some read]; rfl
    · rintro front other behind split
      cases front with
      | nil =>
        obtain ⟨rfl, rfl⟩ := List.cons.inj split
        rw [List.append_nil] at longest fits
        rw [List.flatMap_nil, List.append_nil, texts]
        exact fits
      | cons first front =>
        obtain ⟨rfl, inRest⟩ := List.cons.inj split
        rw [List.flatMap_cons, text, ← List.append_assoc]
        exact fit front other behind inRest

/-- Cutting a source text is exact.  The text is made of segments, side by side, and its items are
    what these are read as; each segment fits its place. -/
theorem items_segments (source : String) : ∃ segments : List Segment,
    segments.flatMap Segment.text = source.toList ∧
    items source = segments.filterMap Segment.item? ∧
    ∀ before segment after, segments = before ++ segment :: after →
      segment.Fits (before.flatMap Segment.text) (after.flatMap Segment.text) := by
  have longest := allLongest_piecesFrom (p := .nothing) trivial source.toList
  obtain ⟨segments, text, items, fit⟩ := exists_segments [] longest
  refine ⟨segments, ?_, items, fit⟩
  rw [text]
  exact flatMap_text_pieces source.toList

end Source

end NumScript
