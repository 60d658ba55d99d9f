/-
  Cutting a text is local.

  A SEPARATOR is a character that is neither a letter nor a digit nor one of the two signs that can
  be part of a longer piece, the point and `=`.  A blank is one, and so is a bracket, an operator
  other than `==`, or a character that begins no token at all.

  Whatever stands in front of a separator, even a number that waits behind its point for a digit or
  an `=` that waits for another, ends there as it would end at the end of the text; and whatever
  stands behind it is cut as if the text began there.  So the two sides of a separator can be cut
  on their own, and only lines go on counting from the one to the other (`items_around`).  In
  particular a character that cannot be read is an error of its own and does no harm to what stands
  on either side of it.

  That the pieces are cut like this is `piecesFrom_append`; what is left to see is what a separator
  is when it stands alone (`items_toString_cases`).
-/
import NumScript.Proofs.Joining

namespace NumScript.Source

variable {c : Char}

/-! ## Separators -/

/-- What is part of no longer piece is a boundary. -/
theorem isBoundary_of_separates (noWord : c.isAlphanum = false) (noPoint : c ≠ '.')
    (noSign : c ≠ '=') : isBoundary c = true := by
  simp only [isBoundary, noWord, Bool.not_false, Bool.true_and, Bool.and_eq_true,
    decide_eq_true_eq]
  exact ⟨noPoint, noSign⟩

/-- A separator alone is one piece. -/
theorem items_toString (h : isBoundary c = true) :
    items c.toString = ((Piece.single c).item? 1).toList := by
  have cut : pieces c.toString.toList = [.single c] := by
    rw [show c.toString.toList = [] ++ [c] by simp, pieces, piecesFrom_append h]
    rfl
  unfold items
  rw [cut, itemsFrom, itemsFrom, List.append_nil]

/-- A separator alone is a blank, a token of one character, or an error. -/
theorem items_toString_cases (h : isBoundary c = true) :
    (c ∈ [' ', '\t', '\n'] ∧ items c.toString = []) ∨
    (∃ kind, Lexicon.kind? c.toString = some kind ∧
      items c.toString = [.ok ⟨kind, c.toString, 1⟩]) ∨
    ((c ∉ [' ', '\t', '\n'] ∧ ∀ rest, Lexicon.kind? (String.ofList (c :: rest)) = none) ∧
      items c.toString = [.error (.unexpectedCharacter 1 c)]) := by
  obtain ⟨segment, text, item, fits⟩ :=
    Piece.exists_segment [] (isLongest_of_isBoundary h [])
  have item : segment.item? = (Piece.single c).item? 1 := item
  rw [items_toString h, ← item]
  cases segment with
  | token t =>
    obtain ⟨kind, lexeme, line⟩ := t
    obtain ⟨rfl, spelled, _⟩ := fits
    obtain rfl : lexeme = c.toString := by
      rw [← String.ofList_toList (s := lexeme), show lexeme.toList = [c] from text]
      rfl
    exact .inr (.inl ⟨kind, spelled, rfl⟩)
  | unrecognised line d =>
    obtain rfl : d = c := List.singleton_inj.mp text
    obtain ⟨rfl, noBlank, noToken⟩ := fits
    exact .inr (.inr ⟨⟨noBlank, noToken⟩, rfl⟩)
  | skipped d =>
    obtain rfl : d = c := List.singleton_inj.mp text
    exact .inl ⟨fits, rfl⟩

/-! ## Texts around a separator -/

/-- Cutting is local.  The items of a text with a separator in it are those of the text before it,
    then what the separator is on its own, then those of the text behind it, each on the lines that
    go on from the text in front.  On its own a separator is nothing, if it is a blank; or a token
    of this one character; or the error that no token begins with it. -/
theorem items_around (noWord : c.isAlphanum = false) (noPoint : c ≠ '.') (noSign : c ≠ '=')
    (before after : String) :
    items (before ++ c.toString ++ after) =
      items before ++
        ((items c.toString).map (Item.reline (· + before.toList.count '\n')) ++
          (items after).map (Item.reline (· + (before ++ c.toString).toList.count '\n'))) ∧
    ((c ∈ [' ', '\t', '\n'] ∧ items c.toString = []) ∨
      (∃ kind, Lexicon.kind? c.toString = some kind ∧
        items c.toString = [.ok ⟨kind, c.toString, 1⟩]) ∨
      ((c ∉ [' ', '\t', '\n'] ∧ ∀ rest, Lexicon.kind? (String.ofList (c :: rest)) = none) ∧
        items c.toString = [.error (.unexpectedCharacter 1 c)])) := by
  have boundary := isBoundary_of_separates noWord noPoint noSign
  refine ⟨?_, items_toString_cases boundary⟩
  have text : (before ++ c.toString ++ after).toList =
      before.toList ++ c :: after.toList := by simp
  have front : (before ++ c.toString).toList = before.toList ++ [c] := by simp
  have moved := (Piece.single c).item?_reline (· + before.toList.count '\n') 1
  have here : ((Piece.single c).item? (1 + before.toList.count '\n')).toList =
      (items c.toString).map (Item.reline (· + before.toList.count '\n')) := by
    rw [items_toString boundary, moved]
    cases (Piece.single c).item? 1 <;> rfl
  rw [front, ← here]
  unfold items
  rw [text, itemsFrom_pieces_append boundary]

/-- Between a number with a point behind it and two equality signs stands a character that begins
    no token.  The point is still an error of its own, as at the end of a text, and the equality
    signs are still one token. -/
theorem items_around_hash :
    ('#'.isAlphanum = false ∧ '#' ≠ '.' ∧ '#' ≠ '=') ∧
    items "x\n1." = [.ok ⟨.identifier, "x", 1⟩, .ok ⟨.number 1.0, "1", 2⟩,
      .error (.unexpectedCharacter 2 '.')] ∧
    items "==\ny" = [.ok ⟨.equalEqual, "==", 1⟩, .ok ⟨.identifier, "y", 2⟩] ∧
    items ("x\n1." ++ '#'.toString ++ "==\ny") =
      [.ok ⟨.identifier, "x", 1⟩, .ok ⟨.number 1.0, "1", 2⟩, .error (.unexpectedCharacter 2 '.'),
        .error (.unexpectedCharacter 2 '#'), .ok ⟨.equalEqual, "==", 2⟩,
        .ok ⟨.identifier, "y", 3⟩] := by
  have separates : '#'.isAlphanum = false ∧ '#' ≠ '.' ∧ '#' ≠ '=' := by decide
  have before : items "x\n1." = [.ok ⟨.identifier, "x", 1⟩, .ok ⟨.number 1.0, "1", 2⟩,
      .error (.unexpectedCharacter 2 '.')] := by decide +kernel
  have after : items "==\ny" = [.ok ⟨.equalEqual, "==", 1⟩, .ok ⟨.identifier, "y", 2⟩] := rfl
  have around := items_around separates.1 separates.2.1 separates.2.2 "x\n1." "==\ny"
  rw [before, after] at around
  exact ⟨separates, before, after, around.1⟩

end NumScript.Source
