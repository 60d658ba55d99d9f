/-
  What lexemes spell.

  Some tokens are always written the same way: the signs and the five keywords (`Lexicon.signs`,
  `Lexicon.keywords`).  All others are names or numbers.  `Lexicon.kind?` asks a whole lexeme,
  however it was come by, which of these it is; a text that is none of them spells no token.

  How long a number is cannot be seen from its own characters: a point belongs to it only if a digit
  follows.  `Lexicon.leadingNumeral` is the number that a text begins with.
-/
import Mathlib.Data.List.TakeDrop
import NumScript.Source

namespace NumScript

namespace TokenKind

/-- No word is a number. -/
theorem ofWord_ne_number (word : String) (value : Float) : ofWord word ≠ .number value := by
  unfold ofWord
  split <;> nofun

theorem ofWord_ne_equal (word : String) : ofWord word ≠ .equal := by
  unfold ofWord
  split <;> nofun

theorem ofSign?_ne_number (c : Char) (value : Float) : ofSign? c ≠ some (.number value) := by
  unfold ofSign?
  split <;> nofun

theorem ofSign?_ne_equal (c : Char) : ofSign? c ≠ some .equal := by
  unfold ofSign?
  split <;> nofun

theorem ofSign?_ne_identifier (c : Char) : ofSign? c ≠ some .identifier := by
  unfold ofSign?
  split <;> nofun

end TokenKind

namespace Lexicon

/-! ## The lexicon -/

/-- The signs. -/
def signs : List (String × TokenKind) :=
  [("(", .leftParen), (")", .rightParen), ("\x7b", .leftBrace), ("\x7d", .rightBrace),
    ("-", .minus), ("+", .plus), ("/", .slash), ("*", .star), ("!", .bang),
    ("=", .equal), ("==", .equalEqual)]

/-- The keywords, in exactly this case. -/
def keywords : List (String × TokenKind) :=
  [("else", .elseWord), ("halt", .haltWord), ("if", .ifWord), ("input", .inputWord),
    ("print", .printWord)]

/-- A letter, and letters and digits behind it. -/
def isName : List Char → Bool
  | [] => false
  | c :: rest => c.isAlpha && rest.all Char.isAlphanum

/-- The point and the digits that a text begins with, if there is a digit behind the point. -/
def leadingFraction : List Char → List Char
  | '.' :: d :: rest => if d.isDigit then '.' :: d :: rest.takeWhile Char.isDigit else []
  | _ => []

/-- The number that a text begins with: all digits, and the fraction behind them if there is one. -/
def leadingNumeral (text : List Char) : List Char :=
  text.takeWhile Char.isDigit ++ leadingFraction (text.dropWhile Char.isDigit)

/-- Digits, and maybe a point and digits behind it. -/
def isNumeral : List Char → Bool
  | [] => false
  | c :: rest => c.isDigit && leadingNumeral (c :: rest) = c :: rest

/-- The kind of token that a whole lexeme spells, if it spells one. -/
def kind? (lexeme : String) : Option TokenKind :=
  match (signs ++ keywords).lookup lexeme with
  | some kind => some kind
  | none =>
    if isName lexeme.toList then some .identifier
    else if isNumeral lexeme.toList then (Numeral.read? lexeme).map .number
    else none

/-! ## Numbers -/

variable {whole fraction after : List Char}

/-- What a test holds of, up to where it fails, is what is taken. -/
theorem takeWhile_append {p : Char → Bool} {front : List Char} (all : ∀ c ∈ front, p c = true)
    (stops : ∀ c ∈ after.head?, p c = false) : (front ++ after).takeWhile p = front := by
  rw [List.takeWhile_append_of_pos all]
  cases after with
  | nil => rw [List.takeWhile_nil, List.append_nil]
  | cons c rest =>
    rw [List.takeWhile_cons_of_neg (by rw [stops c rfl]; exact Bool.false_ne_true),
      List.append_nil]

/-- What a test holds of, up to where it fails, is what is dropped. -/
theorem dropWhile_append {p : Char → Bool} {front : List Char} (all : ∀ c ∈ front, p c = true)
    (stops : ∀ c ∈ after.head?, p c = false) : (front ++ after).dropWhile p = after := by
  rw [List.dropWhile_append_of_pos all]
  cases after with
  | nil => rfl
  | cons c rest =>
    rw [List.dropWhile_cons_of_neg (by rw [stops c rfl]; exact Bool.false_ne_true)]

/-- A number that no digit and no fraction follows is only its digits. -/
theorem leadingNumeral_whole (digits : ∀ c ∈ whole, c.isDigit = true)
    (stops : ∀ c ∈ after.head?, c.isDigit = false) (noFraction : leadingFraction after = []) :
    leadingNumeral (whole ++ after) = whole := by
  unfold leadingNumeral
  rw [takeWhile_append digits stops, dropWhile_append digits stops, noFraction,
    List.append_nil]

/-- A number with a fraction goes up to the last digit of it. -/
theorem leadingNumeral_fraction (digits : ∀ c ∈ whole, c.isDigit = true)
    (fraction_ne : fraction ≠ []) (digits' : ∀ c ∈ fraction, c.isDigit = true)
    (stops : ∀ c ∈ after.head?, c.isDigit = false) :
    leadingNumeral (whole ++ '.' :: fraction ++ after) = whole ++ '.' :: fraction := by
  have point : ∀ c ∈ ('.' :: fraction ++ after).head?, c.isDigit = false := by
    rintro _ ⟨⟩
    rfl
  unfold leadingNumeral
  rw [List.append_assoc, takeWhile_append digits point, dropWhile_append digits point]
  cases fraction with
  | nil => exact absurd rfl fraction_ne
  | cons d rest =>
    obtain ⟨first, others⟩ := List.forall_mem_cons.mp digits'
    show whole ++ (if d.isDigit then '.' :: d :: (rest ++ after).takeWhile Char.isDigit else []) = _
    rw [if_pos first, takeWhile_append others stops]

/-- Either way, the text of a number is the longest number there. -/
theorem leadingNumeral_text (digits : ∀ c ∈ whole, c.isDigit = true)
    (digits' : ∀ c ∈ fraction, c.isDigit = true) (stops : ∀ c ∈ after.head?, c.isDigit = false)
    (noFraction : fraction = [] → leadingFraction after = []) :
    leadingNumeral ((Source.Piece.number whole fraction).text ++ after) =
      (Source.Piece.number whole fraction).text := by
  cases fraction with
  | nil => exact leadingNumeral_whole digits stops (noFraction rfl)
  | cons d more => exact leadingNumeral_fraction digits (List.cons_ne_nil d more) digits' stops

theorem toLower_of_isDigit {c : Char} (h : c.isDigit = true) : c.toLower = c := by
  simp only [Char.isDigit, Bool.and_eq_true, decide_eq_true_eq] at h
  unfold Char.toLower
  rw [dif_neg]
  rintro ⟨low, _⟩
  have : ('9' : Char).val < ('A' : Char).val := by decide
  exact absurd (UInt32.lt_of_le_of_lt h.2 this) (UInt32.not_lt.mpr low)

/-- A numeral that begins with a digit has no sign. -/
theorem splitSign_of_isDigit {c : Char} (h : c.isDigit = true) (rest : List Char) :
    Numeral.splitSign (c :: rest) = (false, c :: rest) := by
  unfold Numeral.splitSign
  split
  · rename_i same
    obtain ⟨rfl, _⟩ := List.cons.inj same
    cases h
  · rename_i same
    obtain ⟨rfl, _⟩ := List.cons.inj same
    cases h
  · rfl

/-- A text that begins with a digit is none of the words, so it is read as a decimal. -/
theorem unsigned?_of_isDigit {c : Char} (h : c.isDigit = true) (rest : List Char)
    (negative : Bool) : Numeral.unsigned? negative (c :: rest) =
      (Numeral.decimal? (c :: rest)).map fun d => d.nearest.toFloat negative := by
  have word : ∀ d more, d.isDigit = false → (c :: rest).map Char.toLower ≠ d :: more := by
    intro d more noDigit same
    rw [List.map_cons, toLower_of_isDigit h] at same
    obtain ⟨rfl, _⟩ := List.cons.inj same
    rw [h] at noDigit
    cases noDigit
  unfold Numeral.unsigned?
  -- the three words for values without digits begin with letters
  have notNan : ¬ (c :: rest).map Char.toLower = "nan".toList := word 'n' _ rfl
  have notInfinity : ¬ ((c :: rest).map Char.toLower = "inf".toList ∨
      (c :: rest).map Char.toLower = "infinity".toList) := by
    rintro (same | same)
    · exact word 'i' _ rfl same
    · exact word 'i' _ rfl same
  simp only [if_neg notNan, if_neg notInfinity]

/-- The text of a number begins with a digit. -/
theorem exists_text (fraction : List Char) (whole_ne : whole ≠ [])
    (digits : ∀ c ∈ whole, c.isDigit = true) : ∃ c rest,
      (Source.Piece.number whole fraction).text = c :: rest ∧ c.isDigit = true := by
  cases whole with
  | nil => exact absurd rfl whole_ne
  | cons c more =>
    obtain ⟨first, _⟩ := List.forall_mem_cons.mp digits
    cases fraction with
    | nil => exact ⟨c, more, rfl, first⟩
    | cons d others => exact ⟨c, more ++ '.' :: d :: others, rfl, first⟩

/-- The text of a number spells the decimal with these digits. -/
theorem decimal?_text (whole_ne : whole ≠ []) (digits : ∀ c ∈ whole, c.isDigit = true)
    (digits' : ∀ c ∈ fraction, c.isDigit = true) :
    Numeral.decimal? (Source.Piece.number whole fraction).text =
      some (Decimal.ofDigits whole fraction 0) := by
  obtain ⟨rest, text, stops, split⟩ : ∃ rest,
      (Source.Piece.number whole fraction).text = whole ++ rest ∧
      (∀ c ∈ rest.head?, c.isDigit = false) ∧ Numeral.splitFraction rest = (fraction, []) := by
    cases fraction with
    | nil => exact ⟨[], (List.append_nil whole).symm, (fun _ no => nomatch no), rfl⟩
    | cons d more =>
      refine ⟨'.' :: d :: more, rfl, (by rintro _ ⟨⟩; rfl), ?_⟩
      have taken := takeWhile_append digits' fun _ no => nomatch (no : _ ∈ [].head?)
      have left := dropWhile_append digits' fun _ no => nomatch (no : _ ∈ [].head?)
      rw [List.append_nil] at taken left
      show List.span Char.isDigit (d :: more) = _
      rw [List.span_eq_takeWhile_dropWhile, taken, left]
  rw [text]
  unfold Numeral.decimal?
  rw [List.span_eq_takeWhile_dropWhile, takeWhile_append digits stops,
    dropWhile_append digits stops]
  simp only [split]
  rw [if_neg fun no => whole_ne no.1]
  rfl

/-- The text of a number, behind a sign or without one, is read as the number nearest to the
    decimal with these digits. -/
theorem unsigned?_text (whole_ne : whole ≠ []) (digits : ∀ c ∈ whole, c.isDigit = true)
    (digits' : ∀ c ∈ fraction, c.isDigit = true) (negative : Bool) :
    Numeral.unsigned? negative (Source.Piece.number whole fraction).text =
      some ((Decimal.ofDigits whole fraction 0).nearest.toFloat negative) := by
  have decimal := decimal?_text whole_ne digits digits'
  obtain ⟨c, rest, text, digit⟩ := exists_text fraction whole_ne digits
  rw [text] at decimal ⊢
  rw [unsigned?_of_isDigit digit, decimal]
  rfl

/-- The text of a number is read as the number with these digits. -/
theorem read?_text (whole_ne : whole ≠ []) (digits : ∀ c ∈ whole, c.isDigit = true)
    (digits' : ∀ c ∈ fraction, c.isDigit = true) :
    Numeral.read? (String.ofList (Source.Piece.number whole fraction).text) =
      some (Numeral.ofDigits whole fraction) := by
  have unsigned := unsigned?_text whole_ne digits digits' false
  obtain ⟨c, rest, text, digit⟩ := exists_text fraction whole_ne digits
  rw [text] at unsigned ⊢
  rw [Numeral.read?, String.toList_ofList, splitSign_of_isDigit digit]
  exact unsigned

/-! ## Kinds -/

/-- No digit is a letter. -/
theorem isAlpha_of_isDigit {c : Char} (h : c.isDigit = true) : c.isAlpha = false := by
  simp only [Char.isDigit, Bool.and_eq_true, decide_eq_true_eq, ge_iff_le,
    UInt32.le_iff_toNat_le] at h
  have nine : ('9' : Char).val.toNat = 57 := rfl
  have upper : ('A' : Char).val.toNat = 65 := rfl
  have lower : ('a' : Char).val.toNat = 97 := rfl
  delta Char.isAlpha Char.isUpper Char.isLower
  simp only [Bool.or_eq_false_iff, Bool.and_eq_false_iff, decide_eq_false_iff_not, ge_iff_le,
    UInt32.le_iff_toNat_le]
  omega

/-- A name does not begin with a digit. -/
theorem isName_of_isDigit {c : Char} (h : c.isDigit = true) (rest : List Char) :
    isName (c :: rest) = false := by
  rw [isName, isAlpha_of_isDigit h, Bool.false_and]

/-- The characters that some lexemes begin with. -/
def starts (entries : List (String × TokenKind)) : List Char :=
  entries.filterMap fun entry => entry.1.toList.head?

/-- A text that begins like none of some lexemes is none of them. -/
theorem lookup_eq_none {entries : List (String × TokenKind)} {c : Char} {rest : List Char}
    (h : c ∉ starts entries) : entries.lookup (String.ofList (c :: rest)) = none := by
  rw [List.lookup_eq_none_iff]
  intro entry mem
  rw [bne_iff_ne]
  intro same
  apply h
  refine List.mem_filterMap.mpr ⟨entry, mem, ?_⟩
  rw [← same, String.toList_ofList]
  rfl

/-- The text of a number spells a number with its value. -/
theorem kind?_number (whole_ne : whole ≠ []) (digits : ∀ c ∈ whole, c.isDigit = true)
    (digits' : ∀ c ∈ fraction, c.isDigit = true) :
    kind? (String.ofList (Source.Piece.number whole fraction).text) =
      some (.number (Numeral.ofDigits whole fraction)) := by
  have read := read?_text whole_ne digits digits'
  have longest := leadingNumeral_text digits digits' (fun _ no => nomatch (no : _ ∈ [].head?))
    fun _ => rfl
  rw [List.append_nil] at longest
  obtain ⟨c, rest, text, digit⟩ := exists_text fraction whole_ne digits
  rw [text] at read longest ⊢
  have notFixed : (signs ++ keywords).lookup (String.ofList (c :: rest)) = none := by
    apply lookup_eq_none
    have noDigit : (starts (signs ++ keywords)).all (fun d => !d.isDigit) = true := by decide
    intro mem
    have other := List.all_eq_true.mp noDigit c mem
    rw [digit] at other
    cases other
  have noName : isName (c :: rest) = false := isName_of_isDigit digit rest
  have numeral : isNumeral (c :: rest) = true := by
    rw [isNumeral, digit, longest]
    exact decide_eq_true rfl
  unfold kind?
  rw [notFixed, String.toList_ofList]
  show (if isName (c :: rest) = true then _ else _) = _
  rw [noName, numeral, read]
  rfl

/-- A word spells the keyword that it is, or a name. -/
theorem kind?_word {c : Char} {rest : List Char} (first : c.isAlpha = true)
    (others : ∀ d ∈ rest, d.isAlphanum = true) :
    kind? (String.ofList (c :: rest)) = some (.ofWord (String.ofList (c :: rest))) := by
  have name : isName (c :: rest) = true := by
    rw [isName, first, List.all_eq_true.mpr others]
    rfl
  unfold TokenKind.ofWord
  split
  · rename_i word; rw [word]; rfl
  · rename_i word; rw [word]; rfl
  · rename_i word; rw [word]; rfl
  · rename_i word; rw [word]; rfl
  · rename_i word; rw [word]; rfl
  · rename_i noElse noHalt noIf noInput noPrint
    have noSign : signs.lookup (String.ofList (c :: rest)) = none := by
      apply lookup_eq_none
      have noLetter : (starts signs).all (fun d => !d.isAlpha) = true := by decide
      intro mem
      have other := List.all_eq_true.mp noLetter c mem
      rw [first] at other
      cases other
    have noKeyword : keywords.lookup (String.ofList (c :: rest)) = none := by
      rw [List.lookup_eq_none_iff]
      simp only [keywords, List.forall_mem_cons, bne_iff_ne]
      exact ⟨noElse, noHalt, noIf, noInput, noPrint, fun _ no => nomatch no⟩
    have notFixed : (signs ++ keywords).lookup (String.ofList (c :: rest)) = none := by
      rw [List.lookup_append, noSign, noKeyword]
      rfl
    unfold kind?
    rw [notFixed, String.toList_ofList]
    exact if_pos name

/-- A sign spells itself. -/
theorem kind?_sign {c : Char} {kind : TokenKind} (h : TokenKind.ofSign? c = some kind) :
    kind? (String.ofList [c]) = some kind := by
  unfold TokenKind.ofSign? at h
  split at h <;> cases h <;> rfl

/-- No lexeme begins with a character that is neither a sign, a letter, a digit nor `=`. -/
theorem kind?_eq_none {c : Char} (letter : c.isAlpha = false) (digit : c.isDigit = false)
    (sign : TokenKind.ofSign? c = none) (equal : c ≠ '=') (rest : List Char) :
    kind? (String.ofList (c :: rest)) = none := by
  have notFixed : (signs ++ keywords).lookup (String.ofList (c :: rest)) = none := by
    apply lookup_eq_none
    have known : (starts (signs ++ keywords)).all (fun d =>
        d.isAlpha || d == '=' || (TokenKind.ofSign? d).isSome) = true := by decide
    intro mem
    have other := List.all_eq_true.mp known c mem
    rw [letter, sign, beq_false_of_ne equal] at other
    cases other
  have noName : isName (c :: rest) = false := by rw [isName, letter, Bool.false_and]
  have noNumeral : isNumeral (c :: rest) = false := by rw [isNumeral, digit, Bool.false_and]
  unfold kind?
  rw [notFixed, String.toList_ofList, noName, noNumeral]
  rfl

/-! ## Shapes of lexemes -/

/-- A name is a letter with letters and digits behind it. -/
theorem exists_of_isName {text : List Char} (h : isName text = true) :
    ∃ c rest, text = c :: rest ∧ c.isAlpha = true ∧ ∀ d ∈ rest, d.isAlphanum = true := by
  cases text with
  | nil => cases h
  | cons c rest =>
    obtain ⟨first, others⟩ := Bool.and_eq_true_iff.mp h
    exact ⟨c, rest, rfl, first, List.all_eq_true.mp others⟩

/-- A fraction is nothing, or a point and digits. -/
theorem leadingFraction_cases (text : List Char) :
    leadingFraction text = [] ∨ ∃ d digits, leadingFraction text = '.' :: d :: digits ∧
      ∀ c ∈ d :: digits, c.isDigit = true := by
  unfold leadingFraction
  split
  · rename_i d rest
    split
    · rename_i digit
      have others : ∀ c ∈ rest.takeWhile Char.isDigit, c.isDigit = true :=
        List.all_eq_true.mp List.all_takeWhile
      exact .inr ⟨d, _, rfl, List.forall_mem_cons.mpr ⟨digit, others⟩⟩
    · exact .inl rfl
  · exact .inl rfl

/-- A numeral is the text of a number. -/
theorem exists_of_isNumeral {text : List Char} (h : isNumeral text = true) :
    ∃ whole fraction, (Source.Piece.number whole fraction).text = text ∧ whole ≠ [] ∧
      (∀ c ∈ whole, c.isDigit = true) ∧ ∀ c ∈ fraction, c.isDigit = true := by
  cases text with
  | nil => cases h
  | cons c rest =>
    obtain ⟨first, same⟩ := Bool.and_eq_true_iff.mp h
    have split : leadingNumeral (c :: rest) = c :: rest := of_decide_eq_true same
    have whole_ne : (c :: rest).takeWhile Char.isDigit ≠ [] := by
      rw [List.takeWhile_cons_of_pos first]
      exact List.cons_ne_nil _ _
    have digits : ∀ d ∈ (c :: rest).takeWhile Char.isDigit, d.isDigit = true :=
      List.all_eq_true.mp List.all_takeWhile
    rw [leadingNumeral] at split
    rcases leadingFraction_cases ((c :: rest).dropWhile Char.isDigit) with
      none | ⟨d, more, some, digits'⟩
    · rw [none, List.append_nil] at split
      exact ⟨_, [], split, whole_ne, digits, nofun⟩
    · rw [some] at split
      exact ⟨_, d :: more, split, whole_ne, digits, digits'⟩

/-- Signs are single characters, but for the equality signs. -/
theorem shape_of_sign : ∀ entry ∈ signs,
    (∃ c kind, entry.1 = String.ofList [c] ∧ TokenKind.ofSign? c = some kind) ∨
      entry.1 = "=" ∨ entry.1 = "==" := by
  simp only [signs, List.forall_mem_cons]
  exact ⟨.inl ⟨'(', _, rfl, rfl⟩, .inl ⟨')', _, rfl, rfl⟩, .inl ⟨'\x7b', _, rfl, rfl⟩,
    .inl ⟨'\x7d', _, rfl, rfl⟩, .inl ⟨'-', _, rfl, rfl⟩, .inl ⟨'+', _, rfl, rfl⟩,
    .inl ⟨'/', _, rfl, rfl⟩, .inl ⟨'*', _, rfl, rfl⟩, .inl ⟨'!', _, rfl, rfl⟩,
    .inr (.inl trivial), .inr (.inr trivial), nofun⟩

/-- Keywords would be names if they were not keywords. -/
theorem isName_of_keyword : ∀ entry ∈ keywords, isName entry.1.toList = true := by
  have names : keywords.all (fun entry => isName entry.1.toList) = true := by decide
  exact List.all_eq_true.mp names

/-- What spells a token is a name, a numeral, a sign that stands alone, or equality signs. -/
theorem shape_of_kind? {lexeme : String} {kind : TokenKind} (h : kind? lexeme = some kind) :
    isName lexeme.toList = true ∨ isNumeral lexeme.toList = true ∨
      (∃ c kind, lexeme = String.ofList [c] ∧ TokenKind.ofSign? c = some kind) ∨
      lexeme = "=" ∨ lexeme = "==" := by
  unfold kind? at h
  split at h
  · rename_i found
    obtain ⟨before, after, split, _⟩ := List.lookup_eq_some_iff.mp found
    have entry : (lexeme, kind) ∈ signs ++ keywords := by
      rw [split]
      cases h
      exact List.mem_append_right before List.mem_cons_self
    rcases List.mem_append.mp entry with sign | keyword
    · exact .inr (.inr (shape_of_sign _ sign))
    · exact .inl (isName_of_keyword _ keyword)
  · split at h
    · exact .inl ‹_›
    · split at h
      · exact .inr (.inl ‹_›)
      · cases h

/-- What spells a number is the text of one, and has the value of its digits. -/
theorem exists_of_kind?_number {lexeme : String} {value : Float}
    (h : kind? lexeme = some (.number value)) :
    ∃ whole fraction, (Source.Piece.number whole fraction).text = lexeme.toList ∧ whole ≠ [] ∧
      (∀ c ∈ whole, c.isDigit = true) ∧ (∀ c ∈ fraction, c.isDigit = true) ∧
      value = Numeral.ofDigits whole fraction := by
  rcases shape_of_kind? h with name | numeral | ⟨c, kind, rfl, sign⟩ | rfl | rfl
  · obtain ⟨c, rest, text, letter, others⟩ := exists_of_isName name
    have spelled := kind?_word letter others
    rw [← text, String.ofList_toList, h] at spelled
    exact absurd (Option.some.inj spelled).symm (TokenKind.ofWord_ne_number _ value)
  · obtain ⟨whole, fraction, text, whole_ne, digits, digits'⟩ := exists_of_isNumeral numeral
    have spelled := kind?_number whole_ne digits digits'
    rw [text, String.ofList_toList, h] at spelled
    exact ⟨whole, fraction, text, whole_ne, digits, digits',
      TokenKind.number.inj (Option.some.inj spelled)⟩
  · rw [kind?_sign sign] at h
    obtain rfl := Option.some.inj h
    exact absurd sign (TokenKind.ofSign?_ne_number c value)
  · cases h
  · cases h

end Lexicon

end NumScript
