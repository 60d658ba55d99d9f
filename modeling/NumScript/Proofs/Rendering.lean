/-
  Cutting undoes writing.

  Tokens are written down as their lexemes with blanks between them, as many as one likes and maybe
  none.  Cut again, the text gives the same tokens, on the lines where they were written, exactly if
  nothing was written side by side that runs together: a word and what begins with a letter or a
  digit, two numbers, or `=` and what begins with `=` (`Source.tokens_render_iff`).

  A lexeme is one piece of a text (`Source.exists_piece`), and it is cut off where it ends as it has
  to.  The converse holds because pieces are never longer or shorter than they have to be: if the
  first token of a text has this lexeme, then it is this piece that was cut off, and so it ends
  where it has to (`Source.itemsFrom_lexeme_iff`).  What stands behind a lexeme is a blank, the next
  lexeme or nothing, so the rules for the ends of pieces become rules for neighbours
  (`Source.Spaced.endsBefore_iff`), and an induction over the tokens gives both directions at once.
-/
import Mathlib.Data.List.Chain
import NumScript.Proofs.LeadingPieces

namespace NumScript

namespace TokenKind

/-- A name or a keyword. -/
def isWord : TokenKind → Bool
  | .identifier | .elseWord | .haltWord | .ifWord | .inputWord | .printWord => true
  | _ => false

/-- A number, whatever its value. -/
def isNumber : TokenKind → Bool
  | .number _ => true
  | _ => false

theorem isWord_ofWord (word : String) : (ofWord word).isWord = true := by
  unfold ofWord
  split <;> rfl

/-- A word is neither a number nor an equality sign. -/
theorem of_ofWord (word : String) :
    (ofWord word).isNumber = false ∧ ofWord word ≠ .equal ∧ ofWord word ≠ .equalEqual := by
  unfold ofWord
  split <;> exact ⟨rfl, nofun, nofun⟩

/-- A sign alone is neither a word, a number nor an equality sign. -/
theorem of_ofSign? {c : Char} {kind : TokenKind} (h : ofSign? c = some kind) :
    kind.isWord = false ∧ kind.isNumber = false ∧ kind ≠ .equal ∧ kind ≠ .equalEqual := by
  unfold ofSign? at h
  split at h <;> cases h <;> exact ⟨rfl, rfl, nofun, nofun⟩

/-- A sign that stands alone is a longest piece, whatever follows. -/
theorem isLongest_of_ofSign? {c : Char} {kind : TokenKind} (h : ofSign? c = some kind)
    (after : List Char) : (Source.Piece.single c).IsLongest after := by
  unfold ofSign? at h
  split at h <;> cases h <;> exact ⟨rfl, rfl, by decide⟩

end TokenKind

namespace Source

/-! ## Lexemes -/

/-- A single character that is a token is a sign. -/
theorem Piece.ofSign?_of_item? {c : Char} {line : Nat} {t : Token}
    (h : (Piece.single c).item? line = some (.ok t)) : TokenKind.ofSign? c = some t.kind := by
  rw [item?] at h
  cases sign : TokenKind.ofSign? c with
  | some kind =>
    rw [sign] at h
    cases h
    rfl
  | none =>
    simp only [sign] at h
    split at h <;> cases h

/-- The token of a piece has its text as lexeme and ends no line. -/
theorem Piece.of_item? {piece : Piece} {line : Nat} {t : Token}
    (h : piece.item? line = some (.ok t)) :
    t.lexeme = String.ofList piece.text ∧ piece.lineEnds = 0 := by
  cases piece with
  | single c =>
    have sign := ofSign?_of_item? h
    simp only [item?, sign] at h
    have same : _ = t := Except.ok.inj (Option.some.inj h)
    refine ⟨(congrArg Token.lexeme same).symm, if_neg fun lineEnd => ?_⟩
    rw [Piece.single.inj lineEnd] at sign
    cases sign
  | _ =>
    cases h
    exact ⟨rfl, rfl⟩

/-- Only a blank is nothing. -/
theorem Piece.exists_blank {piece : Piece} {line : Nat} (h : piece.item? line = none) :
    ∃ c, piece = .single c ∧ isSkipped c = true := by
  cases piece with
  | single c =>
    simp only [item?] at h
    split at h
    · cases h
    · split at h
      · exact ⟨c, rfl, ‹_›⟩
      · cases h
  | _ => cases h

/-- A text that spells a token is one piece, and the piece is read as this token. -/
theorem exists_piece {lexeme : String} {kind : TokenKind} (h : Lexicon.kind? lexeme = some kind) :
    ∃ piece : Piece, piece.text = lexeme.toList ∧ piece.IsLongest [] ∧
      ∀ line, piece.item? line = some (.ok ⟨kind, lexeme, line⟩) := by
  rcases Lexicon.shape_of_kind? h with name | numeral | ⟨c, kind', rfl, sign⟩ | rfl | rfl
  · obtain ⟨c, rest, split, first, others⟩ := Lexicon.exists_of_isName name
    have spelled := Lexicon.kind?_word first others
    rw [← split, String.ofList_toList, h] at spelled
    obtain rfl := Option.some.inj spelled
    refine ⟨.word lexeme.toList, rfl, ⟨c, rest, split, first, others, forall_mem_head?_nil⟩,
      fun line => ?_⟩
    rw [Piece.item?, Piece.text, String.ofList_toList]
  · obtain ⟨whole, fraction, text, whole_ne, digits, digits'⟩ :=
      Lexicon.exists_of_isNumeral numeral
    have spelled := Lexicon.kind?_number whole_ne digits digits'
    rw [text, String.ofList_toList, h] at spelled
    obtain rfl := Option.some.inj spelled
    refine ⟨.number whole fraction, text,
      ⟨whole_ne, digits, digits', forall_mem_head?_nil, fun _ => rfl⟩, fun line => ?_⟩
    rw [Piece.item?, text, String.ofList_toList]
  · have spelled := Lexicon.kind?_sign sign
    rw [h] at spelled
    obtain rfl := Option.some.inj spelled
    refine ⟨.single c, String.toList_ofList.symm, ?_, fun line => ?_⟩
    · exact TokenKind.isLongest_of_ofSign? sign []
    · rw [Piece.item?, sign]
      rfl
  · cases h
    exact ⟨.equal, rfl, (Option.some_ne_none '=').symm, fun _ => rfl⟩
  · cases h
    exact ⟨.equalEqual, rfl, trivial, fun _ => rfl⟩

/-! ## A lexeme in front of a text -/

theorem not_isSkipped_of_isAlphanum {c : Char} (h : c.isAlphanum = true) :
    isSkipped c = false ∧ c ≠ '.' ∧ c ≠ '=' := by
  have noBoundary : isBoundary c = false := by
    rw [isBoundary, h]
    rfl
  refine ⟨?_, ?_, ?_⟩
  · cases blank : isSkipped c with
    | false => rfl
    | true =>
      rw [isBoundary_of_isSkipped blank] at noBoundary
      cases noBoundary
  · rintro rfl
    cases h
  · rintro rfl
    cases h

/-- What a token begins with: no blank and no point, a digit if it is a number and then only, and
    an equality sign if it is made of those and then only. -/
theorem Piece.begins {piece : Piece} {line : Nat} {t : Token} (longest : piece.IsLongest [])
    (h : piece.item? line = some (.ok t)) : ∃ c rest, piece.text = c :: rest ∧
      isSkipped c = false ∧ c ≠ '.' ∧ (c.isDigit = true ↔ t.kind.isNumber = true) ∧
      (c = '=' ↔ t.kind = .equal ∨ t.kind = .equalEqual) := by
  cases piece with
  | word letters =>
    cases h
    obtain ⟨c, rest, rfl, letter, _, _⟩ := longest
    obtain ⟨noNumber, noEqual, noEqualEqual⟩ := TokenKind.of_ofWord (String.ofList (c :: rest))
    have word : c.isAlphanum = true := by
      rw [Char.isAlphanum, letter]
      rfl
    have noDigit : ¬ c.isDigit = true := by
      intro digit
      rw [Lexicon.isAlpha_of_isDigit digit] at letter
      cases letter
    obtain ⟨noBlank, noPoint, noSign⟩ := not_isSkipped_of_isAlphanum word
    refine ⟨c, rest, rfl, noBlank, noPoint, ?_, ?_⟩
    · rw [iff_false_left noDigit, noNumber]
      exact Bool.false_ne_true
    · exact iff_of_false noSign (not_or.mpr ⟨noEqual, noEqualEqual⟩)
  | number whole fraction =>
    cases h
    obtain ⟨whole_ne, digits, _, _, _⟩ := longest
    obtain ⟨c, rest, text, digit⟩ := Lexicon.exists_text fraction whole_ne digits
    have word : c.isAlphanum = true := by
      rw [Char.isAlphanum, digit, Bool.or_true]
    obtain ⟨noBlank, noPoint, noSign⟩ := not_isSkipped_of_isAlphanum word
    refine ⟨c, rest, text, noBlank, noPoint, iff_of_true digit rfl, iff_of_false noSign ?_⟩
    rintro (no | no) <;> cases no
  | equal =>
    cases h
    exact ⟨'=', [], rfl, rfl, by decide, Iff.rfl, iff_of_true rfl (.inl rfl)⟩
  | equalEqual =>
    cases h
    exact ⟨'=', ['='], rfl, rfl, by decide, Iff.rfl, iff_of_true rfl (.inr rfl)⟩
  | single c =>
    have sign := ofSign?_of_item? h
    obtain ⟨_, noNumber, noEqual, noEqualEqual⟩ := TokenKind.of_ofSign? sign
    obtain ⟨_, noDigit, noSign⟩ := longest
    refine ⟨c, [], rfl, ?_, ?_, ?_, ?_⟩
    · cases blank : isSkipped c with
      | false => rfl
      | true =>
        rw [ofSign?_of_isSkipped blank] at sign
        cases sign
    · rintro rfl
      cases sign
    · rw [noDigit, noNumber]
    · exact iff_of_false noSign (not_or.mpr ⟨noEqual, noEqualEqual⟩)

/-- Nothing stands at the beginning of the text that would have gone on with a token of this
    kind. -/
def EndsBefore (kind : TokenKind) (after : List Char) : Prop :=
  ∀ c ∈ after.head?, (kind.isWord = true → c.isAlphanum = false) ∧
    (kind.isNumber = true → c.isDigit = false) ∧ (kind = .equal → c ≠ '=')

/-- Where no point follows, the next character decides whether a piece ends. -/
theorem Piece.isLongest_iff {piece : Piece} {line : Nat} {t : Token} {after : List Char}
    (longest : piece.IsLongest []) (h : piece.item? line = some (.ok t))
    (noPoint : ∀ c ∈ after.head?, c ≠ '.') :
    piece.IsLongest after ↔ EndsBefore t.kind after := by
  cases piece with
  | word letters =>
    cases h
    obtain ⟨noNumber, noEqual, _⟩ := TokenKind.of_ofWord (String.ofList letters)
    obtain ⟨c, rest, split, letter, others, _⟩ := longest
    constructor
    · rintro ⟨_, _, _, _, _, stops⟩ d mem
      refine ⟨fun _ => stops d mem, ?_, fun no => absurd no noEqual⟩
      rw [noNumber]
      exact nofun
    · intro ends
      exact ⟨c, rest, split, letter, others,
        fun d mem => (ends d mem).1 (TokenKind.isWord_ofWord _)⟩
  | number whole fraction =>
    cases h
    obtain ⟨whole_ne, digits, digits', _, _⟩ := longest
    constructor
    · rintro ⟨_, _, _, stops, _⟩ c mem
      exact ⟨nofun, fun _ => stops c mem, nofun⟩
    · intro ends
      refine ⟨whole_ne, digits, digits', fun c mem => (ends c mem).2.1 rfl, fun _ => ?_⟩
      unfold Lexicon.leadingFraction
      split
      · exact absurd rfl (noPoint '.' rfl)
      · rfl
  | equal =>
    cases h
    constructor
    · intro stops c mem
      refine ⟨nofun, nofun, fun _ same => stops (same ▸ mem)⟩
    · intro ends again
      exact (ends '=' again).2.2 rfl rfl
  | equalEqual =>
    cases h
    exact ⟨fun _ _ _ => ⟨nofun, nofun, nofun⟩, fun _ => trivial⟩
  | single c =>
    obtain ⟨noWord, noNumber, noEqual, _⟩ := TokenKind.of_ofSign? (ofSign?_of_item? h)
    refine iff_of_true longest fun d _ => ⟨?_, ?_, fun no => absurd no noEqual⟩
    · rw [noWord]
      exact nofun
    · rw [noNumber]
      exact nofun

/-- If a text that begins with the lexeme of a token has this token as its first, then the lexeme
    ends where it has to. -/
theorem isLongest_of_itemsFrom {piece : Piece} {line : Nat} {t : Token} {more : List Item}
    {after : List Char} (longest : piece.IsLongest []) (h : piece.item? line = some (.ok t))
    (read : itemsFrom line (pieces (piece.text ++ after)) = .ok t :: more) :
    piece.IsLongest after := by
  have text := flatMap_text_pieces (piece.text ++ after)
  have all : Piece.AllLongest (pieces (piece.text ++ after)) [] :=
    allLongest_piecesFrom (p := .nothing) trivial (piece.text ++ after)
  cases cut : pieces (piece.text ++ after) with
  | nil =>
    rw [cut] at read
    cases read
  | cons first others =>
    rw [cut] at text all read
    rw [List.flatMap_cons] at text
    obtain ⟨ends, _⟩ := all
    rw [List.append_nil] at ends
    rw [itemsFrom] at read
    cases item : first.item? line with
    | none =>
      -- a blank cannot be first, because no lexeme begins with one
      obtain ⟨c, rfl, blank⟩ := Piece.exists_blank item
      obtain ⟨d, rest, begins, noBlank, _⟩ := Piece.begins longest h
      rw [begins] at text
      obtain ⟨rfl, _⟩ := List.cons.inj text
      rw [blank] at noBlank
      cases noBlank
    | some found =>
      rw [item] at read
      obtain ⟨rfl, _⟩ := List.cons.inj read
      have same : first.text = piece.text :=
        String.ofList_injective ((Piece.of_item? item).1.symm.trans (Piece.of_item? h).1)
      obtain rfl := Piece.eq_of_text ends.nil longest same
      rw [List.append_cancel_left text] at ends
      exact ends

/-- A text that begins with the lexeme of a token has this token as its first if the lexeme ends
    where it has to, and only then. -/
theorem itemsFrom_lexeme_iff {piece : Piece} {line : Nat} {t : Token} {more : List Item}
    {after : List Char} (longest : piece.IsLongest []) (h : piece.item? line = some (.ok t)) :
    itemsFrom line (pieces (piece.text ++ after)) = .ok t :: more ↔
      piece.IsLongest after ∧ itemsFrom line (pieces after) = more := by
  have there (ends : piece.IsLongest after) : itemsFrom line (pieces (piece.text ++ after)) =
      .ok t :: itemsFrom line (pieces after) := by
    rw [pieces_append ends, itemsFrom, h, (Piece.of_item? h).2]
    rfl
  constructor
  · intro read
    have ends := isLongest_of_itemsFrom longest h read
    rw [there ends] at read
    exact ⟨ends, (List.cons.inj read).2⟩
  · rintro ⟨ends, rfl⟩
    exact there ends

/-- Blanks are no tokens; they only count lines. -/
theorem itemsFrom_blanks {blanks : List Char} (h : ∀ c ∈ blanks, isSkipped c = true) (line : Nat)
    (text : List Char) : itemsFrom line (pieces (blanks ++ text)) =
      itemsFrom (line + blanks.count '\n') (pieces text) := by
  induction blanks generalizing line with
  | nil => rfl
  | cons c rest ih =>
    obtain ⟨blank, others⟩ := List.forall_mem_cons.mp h
    have alone := isLongest_of_isBoundary (isBoundary_of_isSkipped blank)
    have cut : pieces (c :: rest ++ text) = .single c :: pieces (rest ++ text) :=
      pieces_append (alone _)
    rw [cut, itemsFrom, Piece.item?_of_isSkipped blank, ← Piece.count_text (alone []), ih others,
      Nat.add_assoc, ← List.count_append]
    rfl

/-! ## Rendering -/

/-- Blanks, maybe none. -/
structure Gap where
  /-- The characters. -/
  chars : List Char
  /-- Each of them is skipped. -/
  blank : ∀ c ∈ chars, isSkipped c = true

/-- A token to be written, and the blanks to be written in front of it. -/
structure Spaced where
  /-- The blanks. -/
  gap : Gap
  /-- What the token is. -/
  kind : TokenKind
  /-- The text it is written as. -/
  lexeme : String
  /-- This text spells such a token. -/
  spelled : Lexicon.kind? lexeme = some kind

namespace Spaced

/-- The two would run together if nothing stood between them. -/
def RunsInto (part next : Spaced) : Prop :=
  (part.kind.isWord = true ∧ ∃ c ∈ next.lexeme.toList.head?, c.isAlphanum = true) ∨
  (part.kind.isNumber = true ∧ next.kind.isNumber = true) ∨
  (part.kind = .equal ∧ (next.kind = .equal ∨ next.kind = .equalEqual))

/-- The characters that are written, `tail` being the last of them. -/
def text (tail : Gap) : List Spaced → List Char
  | [] => tail.chars
  | part :: rest => part.gap.chars ++ (part.lexeme.toList ++ text tail rest)

/-- The tokens that are written behind this text, with the lines they are written on. -/
def tokens (before : List Char) : List Spaced → List Token
  | [] => []
  | part :: rest =>
    ⟨part.kind, part.lexeme, 1 + (before ++ part.gap.chars).count '\n'⟩ ::
      tokens (before ++ part.gap.chars ++ part.lexeme.toList) rest

/-- The text that is written. -/
def render (parts : List Spaced) (tail : Gap) : String :=
  String.ofList (text tail parts)

end Spaced

/-- How a lexeme begins tells numbers and equality signs from all other tokens. -/
theorem Spaced.begins (part : Spaced) : ∃ c rest, part.lexeme.toList = c :: rest ∧ c ≠ '.' ∧
    (c.isDigit = true ↔ part.kind.isNumber = true) ∧
    (c = '=' ↔ part.kind = .equal ∨ part.kind = .equalEqual) := by
  obtain ⟨piece, lexeme, longest, item⟩ := exists_piece part.spelled
  obtain ⟨c, rest, text, _, facts⟩ := Piece.begins longest (item 1)
  exact ⟨c, rest, lexeme ▸ text, facts⟩

/-- Where nothing or a blank follows, every token ends, and so does every number. -/
theorem endsBefore_of_blank {after : List Char} (h : ∀ c ∈ after.head?, isSkipped c = true)
    (kind : TokenKind) : EndsBefore kind after ∧ ∀ c ∈ after.head?, c ≠ '.' := by
  have bounds (c : Char) (mem : c ∈ after.head?) := isBoundary_of_isSkipped (h c mem)
  constructor
  · intro c mem
    obtain ⟨noLetter, noDigit, _, noSign⟩ := not_of_isBoundary (bounds c mem)
    have noWord : c.isAlphanum = false := by
      rw [Char.isAlphanum, noLetter, noDigit]
      rfl
    exact ⟨fun _ => noWord, fun _ => noDigit, fun _ => noSign⟩
  · intro c mem
    exact (not_of_isBoundary (bounds c mem)).2.2.1

/-- What stands behind a token in a rendering is no point, and does not go on with the token if
    that is kept apart from the next one. -/
theorem Spaced.endsBefore_iff (part : Spaced) (rest : List Spaced) (tail : Gap) :
    (∀ c ∈ (text tail rest).head?, c ≠ '.') ∧
      (EndsBefore part.kind (text tail rest) ↔
        ∀ next ∈ rest.head?, part.RunsInto next → next.gap.chars ≠ []) := by
  cases rest with
  | nil =>
    obtain ⟨ends, noPoint⟩ := endsBefore_of_blank
      (fun c mem => tail.blank c (List.mem_of_mem_head? mem)) part.kind
    exact ⟨noPoint, iff_of_true ends nofun⟩
  | cons next more =>
    cases gap : next.gap.chars with
    | cons c others =>
      have blank : ∀ d ∈ (text tail (next :: more)).head?, isSkipped d = true := by
        rw [text, gap]
        rintro _ ⟨⟩
        exact next.gap.blank c (gap ▸ List.mem_cons_self)
      obtain ⟨ends, noPoint⟩ := endsBefore_of_blank blank part.kind
      refine ⟨noPoint, iff_of_true ends ?_⟩
      rintro _ ⟨⟩ _
      rw [gap]
      exact List.cons_ne_nil c others
    | nil =>
      obtain ⟨c, others, lexeme, noPoint, digit, sign⟩ := next.begins
      have begins : text tail (next :: more) = c :: (others ++ text tail more) := by
        rw [text, gap, lexeme]
        rfl
      rw [begins]
      constructor
      · rintro _ ⟨⟩
        exact noPoint
      · have together : part.RunsInto next ↔
            (part.kind.isWord = true ∧ c.isAlphanum = true) ∨
            (part.kind.isNumber = true ∧ c.isDigit = true) ∨ (part.kind = .equal ∧ c = '=') := by
          simp only [RunsInto, lexeme, List.head?_cons, Option.mem_some_iff, exists_eq_left',
            ← digit, ← sign]
        simp only [EndsBefore, together, gap, List.head?_cons, Option.mem_some_iff, forall_eq',
          ne_eq, not_true_eq_false, imp_false, not_or, not_and, Bool.not_eq_true]

/-- The items of what is written behind a text are the tokens that are written, if what would run
    together is kept apart and then only. -/
theorem itemsFrom_text_iff (parts : List Spaced) (tail : Gap) (before : List Char) :
    itemsFrom (1 + before.count '\n') (pieces (Spaced.text tail parts)) =
        (Spaced.tokens before parts).map .ok ↔
      parts.IsChain fun part next => part.RunsInto next → next.gap.chars ≠ [] := by
  induction parts generalizing before with
  | nil =>
    have none := itemsFrom_blanks tail.blank (1 + before.count '\n') []
    rw [List.append_nil] at none
    exact iff_of_true none .nil
  | cons part rest ih =>
    obtain ⟨piece, lexeme, longest, item⟩ := exists_piece part.spelled
    obtain ⟨noPoint, apart⟩ := part.endsBefore_iff rest tail
    have here := item (1 + (before ++ part.gap.chars).count '\n')
    have ends : piece.IsLongest (Spaced.text tail rest) ↔ EndsBefore part.kind _ :=
      Piece.isLongest_iff longest here noPoint
    obtain ⟨_, noLineEnd⟩ := Piece.of_item? here
    have line : (before ++ part.gap.chars ++ part.lexeme.toList).count '\n' =
        (before ++ part.gap.chars).count '\n' := by
      rw [List.count_append, ← lexeme, Piece.count_text longest, noLineEnd, Nat.add_zero]
    rw [List.isChain_cons, ← apart, ← ends, ← ih (before ++ part.gap.chars ++ part.lexeme.toList),
      line, Spaced.text, Spaced.tokens, itemsFrom_blanks part.gap.blank, Nat.add_assoc,
      ← List.count_append, ← lexeme]
    exact itemsFrom_lexeme_iff longest here

/-- Cutting undoes rendering.  The tokens of a text that tokens were written as are these tokens, on
    the lines that they were written on, if and only if there is a blank in front of every token
    that the one before it would run into. -/
theorem tokens_render_iff (parts : List Spaced) (tail : Gap) :
    tokens (Spaced.render parts tail) = .ok (Spaced.tokens [] parts) ↔
      parts.IsChain fun part next => part.RunsInto next → next.gap.chars ≠ [] := by
  unfold tokens items Spaced.render
  rw [tokensOf_eq_ok_iff, String.toList_ofList]
  exact itemsFrom_text_iff parts tail []

/-- A number directly before a name is cut off where it was written.  A name directly before a
    number is not, but with a blank between them it is. -/
theorem tokens_render_iff_of_neighbours :
    let none : Gap := ⟨[], List.forall_mem_nil _⟩
    let blank : Gap := ⟨[' '], List.forall_mem_singleton.mpr rfl⟩
    let name (gap : Gap) : Spaced := ⟨gap, .identifier, "x", rfl⟩
    let number (gap : Gap) : Spaced :=
      ⟨gap, .number (Numeral.ofDigits ['2'] []), "2", by decide +kernel⟩
    tokens (Spaced.render [number none, name none] none) =
      .ok (Spaced.tokens [] [number none, name none]) ∧
    tokens (Spaced.render [name none, number none] none) ≠
      .ok (Spaced.tokens [] [name none, number none]) ∧
    tokens (Spaced.render [name none, number blank] none) =
      .ok (Spaced.tokens [] [name none, number blank]) := by
  intro none blank name number
  have apart : ¬ (number none).RunsInto (name none) := by
    rintro (⟨no, _⟩ | ⟨_, no⟩ | ⟨no, _⟩) <;> cases no
  have together : (name none).RunsInto (number none) := .inl ⟨rfl, '2', by decide, rfl⟩
  refine ⟨?_, ?_, ?_⟩
  · exact (tokens_render_iff _ _).mpr (.cons_cons (fun no => absurd no apart) (.singleton _))
  · intro cut
    have chain := (tokens_render_iff _ _).mp cut
    exact (List.isChain_cons_cons.mp chain).1 together rfl
  · exact (tokens_render_iff _ _).mpr
      (.cons_cons (fun _ => List.cons_ne_nil ' ' []) (.singleton _))

end Source

end NumScript
