/-
  Numbers in source texts and on lines of input.

  A literal is spelled by digits, maybe with a fraction.  An `input` accepts more: signs, powers of
  ten, the words for values without digits, and blanks around all of that.  On what both accept they
  agree.  The text of a finite number without sign is a source text of one token, which has this
  value, and of no other number is that so (`Source.items_write_iff`).  And a line on which a number
  stands alone is read as this number (`Expr.eval_input_of_isAloneIn`), be it written as a literal
  (`Source.read?_of_mem_items`) or as numbers are printed (`Numeral.read?_write`).

  The blanks around a number can be taken off because no number has blanks in it, however it is
  written (`Numeral.isBlank_of_read?`).
-/
import NumScript.Proofs.LineByLine
import NumScript.Proofs.Places
import NumScript.Proofs.ReadBack
import NumScript.Proofs.Rendering

namespace NumScript

/-! ## Blanks -/

namespace Text

/-- A digit is no blank. -/
theorem isBlank_of_isDigit {c : Char} (h : c.isDigit = true) : isBlank c = false := by
  simp only [Char.isDigit, Bool.and_eq_true, decide_eq_true_eq, ge_iff_le,
    UInt32.le_iff_toNat_le] at h
  have zero : ('0' : Char).val.toNat = 48 := rfl
  have nine : ('9' : Char).val.toNat = 57 := rfl
  have code : c.toNat = c.val.toNat := rfl
  simp only [isBlank, blankRanges, List.any_cons, List.any_nil, Bool.or_false,
    Bool.or_eq_false_iff, Bool.and_eq_false_iff, decide_eq_false_iff_not]
  omega

/-- A blank is no capital letter. -/
theorem toLower_of_isBlank {c : Char} (h : isBlank c = true) : c.toLower = c := by
  have code : c.toNat = c.val.toNat := rfl
  simp only [isBlank, blankRanges, List.any_cons, List.any_nil, Bool.or_false, Bool.or_eq_true,
    Bool.and_eq_true, decide_eq_true_eq] at h
  unfold Char.toLower
  rw [dif_neg]
  rintro ⟨low, high⟩
  have low : 65 ≤ c.val.toNat := UInt32.le_iff_toNat_le.mp low
  have high : c.val.toNat ≤ 90 := UInt32.le_iff_toNat_le.mp high
  omega

/-- Apart from blanks around it, the text is all there is in the line. -/
def IsAloneIn (text line : String) : Prop :=
  ∃ before after, line = before ++ text ++ after ∧
    ∀ c ∈ before.toList ++ after.toList, isBlank c = true

theorem IsAloneIn.refl (text : String) : IsAloneIn text text :=
  ⟨"", "", by simp, nofun⟩

/-- A line end is a blank. -/
theorem IsAloneIn.append_newline {text line : String} (h : IsAloneIn text line) :
    IsAloneIn text (line ++ "\n") := by
  obtain ⟨before, after, rfl, blank⟩ := h
  refine ⟨before, after ++ "\n", String.append_assoc .., ?_⟩
  rw [String.toList_append, ← List.append_assoc]
  exact List.forall_mem_append.mpr
    ⟨blank, List.forall_mem_singleton.mpr (isBlank_of_isWhitespace rfl)⟩

/-- Trimming a line leaves the text that is alone in it. -/
theorem IsAloneIn.trim_eq {text line : String} (h : IsAloneIn text line)
    (solid : ∀ c ∈ text.toList, isBlank c = false) (some_text : text ≠ "") : trim line = text := by
  obtain ⟨before, after, rfl, blank⟩ := h
  obtain ⟨blank, blank'⟩ := List.forall_mem_append.mp blank
  have first (more : List Char) : ∀ c ∈ (text.toList ++ more).head?, isBlank c = false := by
    cases chars : text.toList with
    | nil => exact absurd (String.toList_eq_nil_iff.mp chars) some_text
    | cons d rest =>
      rintro _ ⟨⟩
      exact solid d (chars ▸ List.mem_cons_self)
  have last : ∀ c ∈ text.toList.reverse.head?, isBlank c = false :=
    fun c mem => solid c (List.mem_reverse.mp (List.mem_of_mem_head? mem))
  have blank_reverse : ∀ c ∈ after.toList.reverse, isBlank c = true :=
    fun c mem => blank' c (List.mem_reverse.mp mem)
  rw [trim, String.toList_append, String.toList_append, List.append_assoc,
    Lexicon.dropWhile_append blank (first _), List.reverse_append,
    Lexicon.dropWhile_append blank_reverse last, List.reverse_reverse, String.ofList_toList]

end Text

namespace Numeral

open Text

/-- There is no blank in a sign. -/
theorem isBlank_of_splitSign {text : List Char} (h : ∀ c ∈ (splitSign text).2, isBlank c = false) :
    ∀ c ∈ text, isBlank c = false := by
  unfold splitSign at h
  split at h
  · exact List.forall_mem_cons.mpr ⟨rfl, h⟩
  · exact List.forall_mem_cons.mpr ⟨rfl, h⟩
  · exact h

/-- There is no blank in an exponent. -/
theorem isBlank_of_exponent? {text : List Char} {n : Int} (h : exponent? text = some n) :
    ∀ c ∈ text, isBlank c = false := by
  cases text with
  | nil => nofun
  | cons e rest =>
    simp only [exponent?] at h
    split at h
    · rename_i parts
      obtain ⟨letter, _, digits⟩ := parts
      refine List.forall_mem_cons.mpr ⟨?_, isBlank_of_splitSign fun c mem => ?_⟩
      · rcases letter with rfl | rfl <;> rfl
      · exact isBlank_of_isDigit (List.all_eq_true.mp digits c mem)
    · cases h

/-- There is no blank among digits. -/
theorem isBlank_of_takeWhile_isDigit {text : List Char}
    (behind : ∀ c ∈ text.dropWhile Char.isDigit, isBlank c = false) :
    ∀ c ∈ text, isBlank c = false := by
  rw [← List.takeWhile_append_dropWhile (p := Char.isDigit) (l := text)]
  refine List.forall_mem_append.mpr ⟨fun c mem => ?_, behind⟩
  exact isBlank_of_isDigit (List.all_eq_true.mp List.all_takeWhile c mem)

/-- There is no blank in a fraction. -/
theorem isBlank_of_splitFraction {text : List Char}
    (h : ∀ c ∈ (splitFraction text).2, isBlank c = false) : ∀ c ∈ text, isBlank c = false := by
  unfold splitFraction at h
  split at h
  · rw [List.span_eq_takeWhile_dropWhile] at h
    exact List.forall_mem_cons.mpr ⟨rfl, isBlank_of_takeWhile_isDigit h⟩
  · exact h

/-- There is no blank in a decimal. -/
theorem isBlank_of_decimal? {text : List Char} {d : Decimal} (h : decimal? text = some d) :
    ∀ c ∈ text, isBlank c = false := by
  unfold decimal? at h
  rw [List.span_eq_takeWhile_dropWhile] at h
  dsimp only at h
  split at h
  · cases h
  · obtain ⟨n, exponent, _⟩ := Option.map_eq_some_iff.mp h
    exact isBlank_of_takeWhile_isDigit (isBlank_of_splitFraction (isBlank_of_exponent? exponent))

/-- A text that is a word but for the case of letters has no blanks if the word has none. -/
theorem isBlank_of_map_toLower {text word : List Char} (solid : word.any isBlank = false)
    (same : text.map Char.toLower = word) : ∀ c ∈ text, isBlank c = false := by
  intro c mem
  cases blank : isBlank c with
  | false => rfl
  | true =>
    have there : c.toLower ∈ text.map Char.toLower := List.mem_map_of_mem mem
    rw [toLower_of_isBlank blank, same] at there
    exact absurd blank (List.any_eq_false.mp solid c there)

/-- What is read as a number has no blanks in it. -/
theorem isBlank_of_read? {text : String} {x : Float} (h : read? text = some x) :
    ∀ c ∈ text.toList, isBlank c = false := by
  refine isBlank_of_splitSign ?_
  unfold read? unsigned? at h
  dsimp only at h
  split at h
  · rename_i word
    exact isBlank_of_map_toLower rfl word
  · split at h
    · rename_i word
      rcases word with word | word
      · exact isBlank_of_map_toLower rfl word
      · exact isBlank_of_map_toLower rfl word
    · obtain ⟨d, decimal, _⟩ := Option.map_eq_some_iff.mp h
      exact isBlank_of_decimal? decimal

/-- Nothing is no number. -/
theorem ne_empty_of_read? {text : String} {x : Float} (h : read? text = some x) : text ≠ "" := by
  rintro rfl
  cases h

end Numeral

/-! ## Literals -/

namespace Source

/-- A text that spells a token is cut into this token alone. -/
theorem items_of_kind? {lexeme : String} {kind : TokenKind}
    (h : Lexicon.kind? lexeme = some kind) : items lexeme = [.ok ⟨kind, lexeme, 1⟩] := by
  obtain ⟨piece, text, longest, item⟩ := exists_piece h
  have alone : itemsFrom 1 (pieces (piece.text ++ [])) = [.ok ⟨kind, lexeme, 1⟩] :=
    (itemsFrom_lexeme_iff longest (item 1)).mpr ⟨longest, rfl⟩
  rwa [List.append_nil, text] at alone

/-- A literal is read as the value that it has. -/
theorem read?_of_mem_items {source : String} {t : Token} {value : Float}
    (mem : .ok t ∈ items source) (number : t.kind = .number value) :
    Numeral.read? t.lexeme = some value := by
  have spelled := (standsIn_of_mem_items mem).spelled
  rw [number] at spelled
  obtain ⟨whole, fraction, text, whole_ne, digits, digits', rfl⟩ :=
    Lexicon.exists_of_kind?_number spelled
  have read := Lexicon.read?_text whole_ne digits digits'
  rwa [text, String.ofList_toList] at read

/-- The text of a number is a literal of this number exactly if the number is finite and has no
    sign. -/
theorem items_write_iff (x : Float) :
    items (Numeral.write x) = [.ok ⟨.number x, Numeral.write x, 1⟩] ↔
      ∃ m, m ≠ .infinity ∧ x = Magnitude.toFloat false m := by
  constructor
  · intro read
    have mem : .ok ⟨.number x, Numeral.write x, 1⟩ ∈ items (Numeral.write x) := by
      rw [read]
      exact List.mem_singleton_self _
    obtain ⟨whole, fraction, text, whole_ne, digits, _, value⟩ :=
      Lexicon.exists_of_kind?_number (standsIn_of_mem_items mem).spelled
    refine ⟨(Decimal.ofDigits whole fraction 0).nearest, ?_, value⟩
    intro infinite
    rw [Numeral.ofDigits, infinite] at value
    -- infinity is written as a word, and no literal begins with a letter
    have word : (Numeral.write x).toList = "inf".toList := by
      rw [value, Numeral.write, Magnitude.ofFloat?_toFloat]
      rfl
    obtain ⟨c, rest, begins, digit⟩ := Lexicon.exists_text fraction whole_ne digits
    rw [begins, word] at text
    cases text
    cases digit
  · rintro ⟨m, finite, rfl⟩
    exact items_of_kind? (Lexicon.kind?_write finite)

end Source

/-! ## Lines of input -/

/-- The bytes of the prompt that the session shows before it reads a number. -/
def Session.promptBytes (s : Session) : List UInt8 :=
  (s.prompt.map Text.encode).getD []

namespace Effect

/-- Where the writer does not fail, the prompt for an `input` is written, if there is one. -/
theorem showPrompt_of_neverFails {s : Session} (sound : s.writer.NeverFails) :
    showPrompt s = .ok () (s.wrote s.promptBytes) := by
  obtain ⟨store, reader, writer, prompt⟩ := s
  rw [showPrompt_eq]
  cases prompt with
  | none =>
    rw [Session.wrote, Session.promptBytes, Option.map_none, Option.getD_none, List.append_nil]
  | some text => exact announce_of_neverFails sound text

/-- What a text spells that is alone in the line is the number of the line. -/
theorem numberOf_of_isAloneIn (keyword : Token) {text line : String} {x : Float}
    (alone : Text.IsAloneIn text line) (spelled : Numeral.read? text = some x) :
    numberOf keyword (some line) = .ok x := by
  have trimmed := alone.trim_eq (Numeral.isBlank_of_read? spelled)
    (Numeral.ne_empty_of_read? spelled)
  simp only [numberOf, trimmed, spelled]

end Effect

namespace Expr

open Effect

/-- The prompt is shown, the line is taken, and the number on it is the value. -/
theorem eval_input_of_readLine {keyword : Token} {line : String} {x : Float} {u : Session}
    {reader : Reader} (sound : u.writer.NeverFails)
    (taken : u.reader.readLine = (.ok (some line), reader))
    (spelled : numberOf keyword (some line) = .ok x) :
    (input keyword).eval u = .ok (some x) (u.moved u.store reader u.promptBytes) := by
  have took : takeLine (u.wrote u.promptBytes) =
      .ok (some line) (u.moved u.store reader u.promptBytes) := by
    show ofDevice u.reader.readLine.1 { u.wrote _ with reader := u.reader.readLine.2 } = _
    rw [taken]
    rfl
  have read : readNumber keyword u = .ok x (u.moved u.store reader u.promptBytes) := by
    rw [readNumber, bind_of_ok (showPrompt_of_neverFails sound), bind_of_ok took, spelled]
    rfl
  rw [eval, bind_of_ok read]
  rfl

/-- A line on which a number stands alone is read as this number, whether a line end stands behind
    it or the input ends there. -/
theorem eval_input_of_isAloneIn (keyword : Token) {text line : String} {x : Float} {u : Session}
    {rest : List UInt8} (alone : Text.IsAloneIn text line) (whole : '\n' ∉ line.toList)
    (spelled : Numeral.read? text = some x) (sound : u.writer.NeverFails)
    (bytes : u.reader.bytes = Text.encode line ++ rest)
    (ends : rest.head? = some lineEnd ∨ rest = [] ∧ u.reader.fault = none) :
    (input keyword).eval u =
      .ok (some x) (u.moved u.store { u.reader with bytes := rest.tail } u.promptBytes) := by
  obtain ⟨store, ⟨all, fault⟩, writer, prompt⟩ := u
  obtain rfl : all = Text.encode line ++ rest := bytes
  rcases ends with first | ⟨rfl, sane⟩
  · obtain ⟨more, rfl⟩ := List.head?_eq_some_iff.mp first
    exact eval_input_of_readLine sound (Reader.readLine_append whole more fault)
      (numberOf_of_isAloneIn keyword alone.append_newline spelled)
  · cases sane
    have some_line : line ≠ "" := by
      obtain ⟨before, after, rfl, _⟩ := alone
      intro none
      exact Numeral.ne_empty_of_read? spelled (String.append_eq_empty_iff.mp
        (String.append_eq_empty_iff.mp none).1).2
    refine eval_input_of_readLine sound ?_ (numberOf_of_isAloneIn keyword alone spelled)
    dsimp only
    rw [List.append_nil]
    exact Reader.readLine_last whole some_line

end Expr

end NumScript
