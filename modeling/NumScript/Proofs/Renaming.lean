/-
  Texts in which the variables have other names.

  A RENAMING gives every name another one, no two names the same.  The renamed text has the new name
  wherever a name stood, and all else as it was (`Source.rename`).  It is cut at the same places
  (`Source.pieces_rename`), though names may stand right next to other tokens: where a piece ends is
  decided by the first characters behind it, and a letter takes the place of a letter there.  So the
  renamed text has the renamed tokens (`Source.tokens_rename`).

  Which tokens make a program does not depend on their lexemes.  So the renamed text makes the
  renamed program, or fails with the renamed error (`Program.ofSource_rename`).
-/
import Mathlib.Logic.Equiv.Basic
import NumScript.Proofs.LeadingPieces
import NumScript.Proofs.Relabelling

namespace NumScript

/-! ## Names -/

/-- The text can be the name of a variable: it is a word, and no keyword. -/
def Text.IsName (text : String) : Prop :=
  Lexicon.isName text.toList = true ∧ TokenKind.ofWord text = .identifier

instance (text : String) : Decidable (Text.IsName text) :=
  inferInstanceAs (Decidable (_ ∧ _))

/-- Other names for variables, different ones for different variables. -/
structure Renaming where
  /-- The new name. -/
  map : {name : String // Text.IsName name} → {name : String // Text.IsName name}
  injective : Function.Injective map

namespace Renaming

/-- Two names, each called as the other. -/
def swap (a b : {name : String // Text.IsName name}) : Renaming where
  map := Equiv.swap a b
  injective := (Equiv.swap a b).injective

variable (r : Renaming)

/-- The text, renamed if it is a name. -/
def apply (text : String) : String :=
  if h : Text.IsName text then (r.map ⟨text, h⟩).val else text

variable {r} {text : String}

theorem apply_of_isName (h : Text.IsName text) : r.apply text = (r.map ⟨text, h⟩).val :=
  dif_pos h

theorem apply_of_not (h : ¬ Text.IsName text) : r.apply text = text :=
  dif_neg h

/-- A new name is a name, too. -/
theorem isName_apply (h : Text.IsName text) : Text.IsName (r.apply text) := by
  rw [apply_of_isName h]
  exact (r.map ⟨text, h⟩).property

/-- Only names are renamed to names. -/
theorem isName_apply_iff : Text.IsName (r.apply text) ↔ Text.IsName text := by
  by_cases h : Text.IsName text
  · exact iff_of_true (isName_apply h) h
  · rw [apply_of_not h]

/-- Different texts stay different. -/
theorem apply_injective : Function.Injective r.apply := by
  intro text text' same
  by_cases h : Text.IsName text
  · have h' : Text.IsName text' := isName_apply_iff.mp (same ▸ isName_apply h)
    rw [apply_of_isName h, apply_of_isName h'] at same
    exact congrArg Subtype.val (r.injective (Subtype.ext same))
  · have h' : ¬ Text.IsName text' := fun name => h (isName_apply_iff.mp (same ▸ isName_apply name))
    rwa [apply_of_not h, apply_of_not h'] at same

/-- A word stays a word, and a keyword stays what it is. -/
theorem ofWord_apply (text : String) : TokenKind.ofWord (r.apply text) = TokenKind.ofWord text := by
  by_cases h : Text.IsName text
  · rw [(isName_apply h).2, h.2]
  · rw [apply_of_not h]

theorem isName_toList_apply (h : Lexicon.isName text.toList = true) :
    Lexicon.isName (r.apply text).toList = true := by
  by_cases name : Text.IsName text
  · exact (isName_apply name).1
  · rw [apply_of_not name]
    exact h

/-- What does not begin with a letter is no name. -/
theorem apply_of_isAlpha_eq_false {c : Char} (h : c.isAlpha = false) (rest : List Char) :
    r.apply (String.ofList (c :: rest)) = String.ofList (c :: rest) := by
  refine apply_of_not fun name => ?_
  have word := name.1
  rw [String.toList_ofList, Lexicon.isName, h] at word
  cases word

end Renaming

/-! ## Tokens, trees and errors -/

/-- The token with its lexeme renamed. -/
def Token.rename (r : Renaming) (t : Token) : Token :=
  { t with lexeme := r.apply t.lexeme }

/-- What does not begin with a letter is not renamed. -/
theorem Token.rename_of_isAlpha_eq_false {r : Renaming} {c : Char} (h : c.isAlpha = false)
    (kind : TokenKind) (rest : List Char) (line : Nat) :
    Token.rename r ⟨kind, String.ofList (c :: rest), line⟩ =
      ⟨kind, String.ofList (c :: rest), line⟩ :=
  congrArg (Token.mk kind · line) (Renaming.apply_of_isAlpha_eq_false h rest)

/-- Renaming tokens, and the lexemes in syntax errors with them. -/
def Relabelling.names (r : Renaming) : Relabelling where
  token := Token.rename r
  error
    | .syntactic line lexeme text => .syntactic line (lexeme.map r.apply) text
    | e => e
  kind_token _ := rfl
  error_misplaced _ _ := rfl
  error_unexpectedEnd _ _ := rfl

/-- The program with the lexemes of all its tokens renamed. -/
def Program.rename (r : Renaming) (p : Program) : Program :=
  p.map (Token.rename r)

namespace Source

/-! ## Pieces that are cut off as before -/

/-- The texts begin with the same character, or both with a letter. -/
inductive Alike : List Char → List Char → Prop where
  | nil : Alike [] []
  | same (c : Char) (a b : List Char) : Alike (c :: a) (c :: b)
  | letters {c d : Char} (letter : c.isAlpha = true) (letter' : d.isAlpha = true)
    (a b : List Char) : Alike (c :: a) (d :: b)

namespace Alike

variable {a b : List Char}

/-- Where the one text begins with no letter or digit, neither does the other. -/
theorem isAlphanum (h : Alike a b) (stops : ∀ c ∈ a.head?, c.isAlphanum = false) :
    ∀ c ∈ b.head?, c.isAlphanum = false := by
  cases h with
  | nil => exact stops
  | same c a b => exact stops
  | @letters c d letter letter' a b =>
    have no := stops c rfl
    rw [Char.isAlphanum, letter, Bool.true_or] at no
    cases no

/-- Where the one text does not begin with a digit, neither does the other. -/
theorem isDigit (h : Alike a b) (stops : ∀ c ∈ a.head?, c.isDigit = false) :
    ∀ c ∈ b.head?, c.isDigit = false := by
  cases h with
  | nil => exact stops
  | same c a b => exact stops
  | @letters c d letter letter' a b =>
    rintro _ ⟨⟩
    by_contra digit
    rw [Lexicon.isAlpha_of_isDigit (Bool.not_eq_false _ |>.mp digit)] at letter'
    cases letter'

/-- Where the one text does not begin with an `=`, neither does the other. -/
theorem ne_equal (h : Alike a b) (stops : a.head? ≠ some '=') : b.head? ≠ some '=' := by
  cases h with
  | nil => exact stops
  | same c a b => exact stops
  | @letters c d letter letter' a b =>
    rintro ⟨⟩
    cases letter'

end Alike

/-- The piece, renamed if it is a name. -/
def Piece.rename (r : Renaming) : Piece → Piece
  | .word letters => .word (r.apply (String.ofList letters)).toList
  | piece => piece

/-- The text with every name renamed and all else as it was. -/
def rename (r : Renaming) (source : String) : String :=
  String.ofList (((pieces source.toList).map (Piece.rename r)).flatMap Piece.text)

variable {r : Renaming}

/-- A word is renamed to a word. -/
theorem exists_of_word {letters : List Char} {c : Char} {rest : List Char}
    (split : letters = c :: rest) (letter : c.isAlpha = true)
    (others : ∀ d ∈ rest, d.isAlphanum = true) :
    ∃ c rest, (r.apply (String.ofList letters)).toList = c :: rest ∧ c.isAlpha = true ∧
      ∀ d ∈ rest, d.isAlphanum = true := by
  refine Lexicon.exists_of_isName (Renaming.isName_toList_apply ?_)
  rw [String.toList_ofList, split, Lexicon.isName, letter, List.all_eq_true.mpr others]
  rfl

/-- A piece that begins with a letter is a word, and one that begins with a point is a point. -/
theorem Piece.exists_first {piece : Piece} {after : List Char} (h : piece.IsLongest after) :
    ∃ c rest, piece.text = c :: rest ∧ (c = '.' → piece = .single '.') := by
  cases piece with
  | word letters =>
    obtain ⟨c, rest, rfl, letter, _⟩ := h
    refine ⟨c, rest, rfl, ?_⟩
    rintro rfl
    cases letter
  | number whole fraction =>
    obtain ⟨whole_ne, digits, _⟩ := h
    obtain ⟨c, rest, text, digit⟩ := Lexicon.exists_text fraction whole_ne digits
    refine ⟨c, rest, text, ?_⟩
    rintro rfl
    cases digit
  | equal => exact ⟨_, _, rfl, nofun⟩
  | equalEqual => exact ⟨_, _, rfl, nofun⟩
  | single c =>
    refine ⟨c, [], rfl, ?_⟩
    rintro rfl
    rfl

/-- A text with renamed pieces begins with the same character, or with a letter again. -/
theorem alike_rename {pieces : List Piece} {after : List Char} (h : Piece.AllLongest pieces after) :
    Alike (pieces.flatMap Piece.text) ((pieces.map (Piece.rename r)).flatMap Piece.text) := by
  cases pieces with
  | nil => exact .nil
  | cons piece rest =>
    rw [List.map_cons, List.flatMap_cons, List.flatMap_cons]
    obtain ⟨c, more, text, _⟩ := Piece.exists_first h.1
    cases piece with
    | word letters =>
      obtain ⟨c, more, split, letter, others, _⟩ := h.1
      obtain ⟨d, more', split', letter', _⟩ := exists_of_word (r := r) split letter others
      show Alike (letters ++ _) ((r.apply (String.ofList letters)).toList ++ _)
      rw [split', split]
      exact .letters letter letter' _ _
    | _ =>
      rw [Piece.rename, text]
      · exact .same c _ _
      · nofun

/-- A fraction begins with its point. -/
theorem leadingFraction_of_ne {c : Char} (h : c ≠ '.') (rest : List Char) :
    Lexicon.leadingFraction (c :: rest) = [] := by
  unfold Lexicon.leadingFraction
  split
  · rename_i same
    exact absurd (List.cons.inj same).1 h
  · rfl

/-- A point begins a fraction just if a digit stands behind it. -/
theorem leadingFraction_point_iff (rest : List Char) :
    Lexicon.leadingFraction ('.' :: rest) = [] ↔ ∀ d ∈ rest.head?, d.isDigit = false := by
  cases rest with
  | nil => exact iff_of_true rfl forall_mem_head?_nil
  | cons d more =>
    rw [Lexicon.leadingFraction]
    cases digit : d.isDigit with
    | true =>
      refine iff_of_false (List.cons_ne_nil _ _) fun no => ?_
      rw [no d rfl] at digit
      cases digit
    | false =>
      refine ⟨fun _ => ?_, fun _ => rfl⟩
      rintro _ ⟨⟩
      exact digit

/-- No text with renamed pieces begins with a fraction if it did not before. -/
theorem leadingFraction_rename {pieces : List Piece} {after : List Char}
    (h : Piece.AllLongest pieces after)
    (none : Lexicon.leadingFraction (pieces.flatMap Piece.text) = []) :
    Lexicon.leadingFraction ((pieces.map (Piece.rename r)).flatMap Piece.text) = [] := by
  have alike := alike_rename (r := r) h
  cases pieces with
  | nil => rfl
  | cons piece rest =>
    obtain ⟨c, more, text, point⟩ := Piece.exists_first h.1
    rw [List.flatMap_cons, text] at alike none
    generalize renamed : ((piece :: rest).map (Piece.rename r)).flatMap Piece.text = b at alike ⊢
    cases alike with
    | @letters _ d letter letter' _ b =>
      refine leadingFraction_of_ne ?_ b
      rintro rfl
      cases letter'
    | same c a b =>
      by_cases here : c = '.'
      · obtain rfl := point here
        cases text
        cases renamed
        rw [List.cons_append, List.nil_append] at none
        rw [leadingFraction_point_iff] at none ⊢
        exact (alike_rename h.2).isDigit none
      · exact leadingFraction_of_ne here b

/-- A renamed piece ends where it has to, if the text behind it begins as before. -/
theorem Piece.isLongest_rename {piece : Piece} {a b : List Char} (h : piece.IsLongest a)
    (alike : Alike a b)
    (fraction : Lexicon.leadingFraction a = [] → Lexicon.leadingFraction b = []) :
    (piece.rename r).IsLongest b := by
  cases piece with
  | word letters =>
    obtain ⟨c, rest, split, letter, others, stops⟩ := h
    obtain ⟨d, rest', split', letter', others'⟩ := exists_of_word (r := r) split letter others
    exact ⟨d, rest', split', letter', others', alike.isAlphanum stops⟩
  | number whole fraction' =>
    obtain ⟨whole_ne, digits, digits', stops, noFraction⟩ := h
    exact ⟨whole_ne, digits, digits', alike.isDigit stops, fun no => fraction (noFraction no)⟩
  | equal => exact alike.ne_equal h
  | equalEqual => trivial
  | single c => exact h

/-- Renamed pieces end where they have to. -/
theorem Piece.allLongest_rename {pieces : List Piece} (h : AllLongest pieces []) :
    AllLongest (pieces.map (Piece.rename r)) [] := by
  induction pieces with
  | nil => trivial
  | cons piece rest ih =>
    obtain ⟨here, others⟩ := h
    refine ⟨?_, ih others⟩
    rw [List.append_nil] at here ⊢
    exact isLongest_rename here (alike_rename others) (leadingFraction_rename others)

/-- Pieces that end where they have to are cut off one by one. -/
theorem pieces_flatMap_text {ps : List Piece} (h : Piece.AllLongest ps []) :
    pieces (ps.flatMap Piece.text) = ps := by
  induction ps with
  | nil => rfl
  | cons piece rest ih =>
    obtain ⟨here, others⟩ := h
    rw [List.append_nil] at here
    rw [List.flatMap_cons, pieces_append here, ih others]

/-- The renamed text is cut into the renamed pieces. -/
theorem pieces_rename (r : Renaming) (source : String) :
    pieces (rename r source).toList = (pieces source.toList).map (Piece.rename r) := by
  rw [rename, String.toList_ofList]
  exact pieces_flatMap_text (Piece.allLongest_rename (allLongest_piecesFrom (p := .nothing)
    trivial source.toList))

/-! ## Tokens -/

/-- A renamed piece is the renamed token, or the same blank or error as before. -/
theorem Piece.item?_rename {piece : Piece} {after : List Char} (h : piece.IsLongest after)
    (line : Nat) : (piece.rename r).item? line =
      (piece.item? line).map ((Relabelling.names r).result (Token.rename r)) := by
  cases piece with
  | word letters =>
    show some (Except.ok (Token.mk (.ofWord (String.ofList (r.apply _).toList))
      (String.ofList (r.apply _).toList) line)) = _
    rw [String.ofList_toList, Renaming.ofWord_apply]
    rfl
  | number whole fraction =>
    obtain ⟨whole_ne, digits, _⟩ := h
    obtain ⟨c, rest, text, digit⟩ := Lexicon.exists_text fraction whole_ne digits
    have same := Token.rename_of_isAlpha_eq_false (r := r) (Lexicon.isAlpha_of_isDigit digit)
      (.number (Numeral.ofDigits whole fraction)) rest line
    rw [rename, item?, text, Option.map_some, Relabelling.result, same]
    intro _ no
    cases no
  | equal =>
    exact congrArg (some ∘ Except.ok) (Token.rename_of_isAlpha_eq_false rfl .equal [] line).symm
  | equalEqual =>
    exact congrArg (some ∘ Except.ok)
      (Token.rename_of_isAlpha_eq_false rfl .equalEqual ['='] line).symm
  | single c =>
    rw [rename, item?]
    · cases sign : TokenKind.ofSign? c with
      | some kind =>
        exact congrArg (some ∘ Except.ok)
          (Token.rename_of_isAlpha_eq_false h.1 kind [] line).symm
      | none =>
        dsimp only
        split <;> rfl
    · intro _ no
      cases no

/-- There are as many line ends in a renamed piece as before. -/
theorem Piece.lineEnds_rename (piece : Piece) : (piece.rename r).lineEnds = piece.lineEnds := by
  cases piece <;> rfl

/-- Renamed pieces are the renamed tokens, on the same lines. -/
theorem itemsFrom_rename {pieces : List Piece} {after : List Char}
    (h : Piece.AllLongest pieces after) (line : Nat) :
    itemsFrom line (pieces.map (Piece.rename r)) =
      (itemsFrom line pieces).map ((Relabelling.names r).result (Token.rename r)) := by
  induction pieces generalizing line with
  | nil => rfl
  | cons piece rest ih =>
    obtain ⟨here, others⟩ := h
    rw [List.map_cons, itemsFrom, itemsFrom, Piece.item?_rename here, Piece.lineEnds_rename,
      ih others, List.map_append]
    cases piece.item? line <;> rfl

/-- The renamed text has the renamed tokens. -/
theorem tokens_rename (r : Renaming) (source : String) :
    tokens (rename r source) =
      (Relabelling.names r).result (List.map (Token.rename r)) (tokens source) := by
  have longest : Piece.AllLongest (pieces source.toList) [] :=
    allLongest_piecesFrom (p := .nothing) trivial source.toList
  rw [tokens, items, pieces_rename, itemsFrom_rename longest]
  exact tokensOf_map (Relabelling.names r) (items source)

end Source

/-- The renamed text makes the renamed program, or fails with the renamed error. -/
theorem Program.ofSource_rename (r : Renaming) (source : String) :
    ofSource (Source.rename r source) =
      (Relabelling.names r).result (Program.rename r) (ofSource source) := by
  rw [ofSource, ofSource, Source.tokens_rename]
  cases Source.tokens source with
  | error e => rfl
  | ok tokens => exact (Relabelling.names r).ofTokens_map tokens

end NumScript
