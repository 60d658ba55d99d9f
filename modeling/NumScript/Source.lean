/-
  Source text, cut into tokens.

  Cutting is done in two steps that know nothing of each other.  `pieces` splits the characters
  into words, numbers, equality signs and single characters, each piece as long as it can be, so
  that the pieces put side by side are the text.  `itemsFrom` then counts lines and says what each
  piece is: a token, nothing (space, tab, line end), or an error (any other character).

  The splitting is a fold with one piece pending.  A number that is followed by a point waits for
  one more character: a digit makes it a number with a fraction, anything else leaves the point a
  character of its own.
-/
import NumScript.Error
import NumScript.Numeral

namespace NumScript.Source

/-! ## Pieces of text -/

/-- A piece of source text. -/
inductive Piece where
  /-- A letter and the letters and digits behind it. -/
  | word (letters : List Char)
  /-- Digits, with the digits behind a point if there are any. -/
  | number (whole fraction : List Char)
  /-- One equality sign. -/
  | equal
  /-- Two equality signs. -/
  | equalEqual
  /-- Any other character. -/
  | single (c : Char)
deriving DecidableEq

/-- The characters of a piece. -/
def Piece.text : Piece → List Char
  | .word letters => letters
  | .number whole [] => whole
  | .number whole fraction => whole ++ '.' :: fraction
  | .equal => ['=']
  | .equalEqual => ['=', '=']
  | .single c => [c]

/-- How far a piece has been read.  Characters are kept latest first. -/
inductive Pending where
  /-- Nothing has been read yet. -/
  | nothing
  /-- The letters and digits of a word. -/
  | word (letters : List Char)
  /-- The digits of a number without a point. -/
  | digits (whole : List Char)
  /-- The digits of a number and a point that belongs to it if a digit follows. -/
  | point (whole : List Char)
  /-- The digits of a number before its point, the last one after it, and those between. -/
  | fraction (whole : List Char) (last : Char) (between : List Char)
  /-- One equality sign, which may be followed by another. -/
  | equal
  /-- A piece to which nothing can be added. -/
  | done (piece : Piece)

/-- The piece that a character begins. -/
def Pending.start (c : Char) : Pending :=
  if c.isAlpha then .word [c]
  else if c.isDigit then .digits [c]
  else if c = '=' then .equal
  else .done (.single c)

/-- The pending piece with one more character, if the character belongs to it. -/
def Pending.extend? : Pending → Char → Option Pending
  | .word letters, c => if c.isAlphanum then some (.word (c :: letters)) else none
  | .digits whole, c =>
    if c.isDigit then some (.digits (c :: whole))
    else if c = '.' then some (.point whole)
    else none
  | .point whole, c => if c.isDigit then some (.fraction whole c []) else none
  | .fraction whole last between, c =>
    if c.isDigit then some (.fraction whole c (last :: between)) else none
  | .equal, c => if c = '=' then some (.done .equalEqual) else none
  | .nothing, _ => none
  | .done _, _ => none

/-- What the pending characters are if the piece ends here. -/
def Pending.finish : Pending → List Piece
  | .nothing => []
  | .word letters => [.word letters.reverse]
  | .digits whole => [.number whole.reverse []]
  | .point whole => [.number whole.reverse [], .single '.']
  | .fraction whole last between => [.number whole.reverse (last :: between).reverse]
  | .equal => [.equal]
  | .done piece => [piece]

/-- The pieces of a text of which the pending characters have been read already. -/
def piecesFrom (pending : Pending) : List Char → List Piece
  | [] => pending.finish
  | c :: rest =>
    match pending.extend? c with
    | some longer => piecesFrom longer rest
    | none => pending.finish ++ piecesFrom (.start c) rest

/-- A text cut into pieces. -/
def pieces (text : List Char) : List Piece :=
  piecesFrom .nothing text

theorem Piece.text_number {whole fraction : List Char} (h : fraction ≠ []) :
    (Piece.number whole fraction).text = whole ++ '.' :: fraction := by
  cases fraction with
  | nil => exact absurd rfl h
  | cons => rfl

/-- A character that is added to the pending ones stands behind them. -/
theorem Pending.flatMap_text_finish_of_extend? {p q : Pending} {c : Char}
    (h : p.extend? c = some q) :
    q.finish.flatMap Piece.text = p.finish.flatMap Piece.text ++ [c] := by
  unfold extend? at h
  split at h
  · split at h <;> cases h
    simp [finish, Piece.text]
  · split at h
    · cases h
      simp [finish, Piece.text]
    · split at h <;> cases h
      simp_all [finish, Piece.text]
  · split at h <;> cases h
    simp [finish, Piece.text]
  · split at h <;> cases h
    simp [finish, Piece.text_number]
  · split at h <;> cases h
    simp_all [finish, Piece.text]
  · cases h
  · cases h

theorem Pending.flatMap_text_finish_start (c : Char) :
    (Pending.start c).finish.flatMap Piece.text = [c] := by
  unfold start
  split
  · rfl
  · split
    · rfl
    · split
      · simp_all [finish, Piece.text]
      · rfl

/-- The pieces hold the pending characters and the rest of the text, in this order. -/
theorem flatMap_text_piecesFrom (pending : Pending) (text : List Char) :
    (piecesFrom pending text).flatMap Piece.text =
      pending.finish.flatMap Piece.text ++ text := by
  induction text generalizing pending with
  | nil => rw [piecesFrom, List.append_nil]
  | cons c rest ih =>
    rw [piecesFrom]
    split
    · rename_i longer h
      rw [ih, Pending.flatMap_text_finish_of_extend? h, List.append_assoc, List.singleton_append]
    · rw [List.flatMap_append, ih, Pending.flatMap_text_finish_start, List.singleton_append]

/-- The pieces put side by side are the text. -/
theorem flatMap_text_pieces (text : List Char) : (pieces text).flatMap Piece.text = text :=
  flatMap_text_piecesFrom .nothing text

/-! ## What the pieces are -/

/-- A token, or the error for a character that begins none. -/
abbrev Item :=
  Except Error Token

/-- A character between tokens that means nothing. -/
def isSkipped (c : Char) : Bool :=
  c = ' ' || c = '\t' || c = '\n'

/-- What a piece on this line is; a skipped character is nothing. -/
def Piece.item? (line : Nat) (piece : Piece) : Option Item :=
  let token (kind : TokenKind) : Item := .ok ⟨kind, String.ofList piece.text, line⟩
  match piece with
  | .word letters => some (token (.ofWord (String.ofList letters)))
  | .number whole fraction => some (token (.number (Numeral.ofDigits whole fraction)))
  | .equal => some (token .equal)
  | .equalEqual => some (token .equalEqual)
  | .single c =>
    match TokenKind.ofSign? c with
    | some kind => some (token kind)
    | none => if isSkipped c then none else some (.error (.unexpectedCharacter line c))

/-- How many lines a piece ends. -/
def Piece.lineEnds (piece : Piece) : Nat :=
  if piece = .single '\n' then 1 else 0

/-- What the pieces are when the first of them stands on this line. -/
def itemsFrom (line : Nat) : List Piece → List Item
  | [] => []
  | piece :: rest => (piece.item? line).toList ++ itemsFrom (line + piece.lineEnds) rest

/-- Everything in a source text in order, tokens and errors. -/
def items (source : String) : List Item :=
  itemsFrom 1 (pieces source.toList)

/-! ## Tokens of a text without errors -/

/-- The tokens among some items, or the first error. -/
def tokensOf : List Item → Except Error (List Token)
  | [] => .ok []
  | .ok token :: rest => (tokensOf rest).map (token :: ·)
  | .error e :: _ => .error e

/-- The tokens of a source text, or its first error. -/
def tokens (source : String) : Except Error (List Token) :=
  tokensOf (items source)

end NumScript.Source
