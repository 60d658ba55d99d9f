/-
  Pieces in front of a text.

  Cutting reads a text once, from the left, and what is pending takes in one character after the
  other as long as it can.  So a piece that ends where it has to is cut off whatever text it stands
  in front of, and that text is cut as if it began there (`Source.pieces_append`).  For every kind
  of piece, the pending characters are first followed to the end of the piece
  (`Source.piecesFrom_append_of_foldlM`), where the next character does not go on with them
  (`Source.piecesFrom_of_stuck`).
-/
import NumScript.Proofs.Joining

namespace NumScript.Source

/-! ## Pending characters -/

/-- Characters that extend what is pending one after the other are taken into it. -/
theorem piecesFrom_append_of_foldlM {p q : Pending} {front : List Char}
    (h : front.foldlM Pending.extend? p = some q) (after : List Char) :
    piecesFrom p (front ++ after) = piecesFrom q after := by
  induction front generalizing p with
  | nil =>
    cases h
    rfl
  | cons c front ih =>
    rw [List.foldlM_cons] at h
    cases extended : p.extend? c with
    | none =>
      rw [extended] at h
      cases h
    | some longer =>
      rw [extended] at h
      rw [List.cons_append, piecesFrom, extended]
      exact ih h

/-- What cannot be extended ends, and the text behind it is cut as if it began there. -/
theorem piecesFrom_of_stuck {p : Pending} {after : List Char}
    (h : ∀ c ∈ after.head?, p.extend? c = none) :
    piecesFrom p after = p.finish ++ pieces after := by
  cases after with
  | nil => exact (List.append_nil p.finish).symm
  | cons c rest =>
    rw [piecesFrom, h c rfl]
    rfl

namespace Pending

/-- Letters and digits continue a word. -/
theorem foldlM_word {letters : List Char} (h : ∀ c ∈ letters, c.isAlphanum = true)
    (taken : List Char) :
    letters.foldlM extend? (.word taken) = some (.word (letters.reverse ++ taken)) := by
  induction letters generalizing taken with
  | nil => rfl
  | cons c rest ih =>
    obtain ⟨first, others⟩ := List.forall_mem_cons.mp h
    rw [List.foldlM_cons, extend?, if_pos first, List.reverse_cons, List.append_assoc]
    exact ih others (c :: taken)

/-- Digits continue the digits of a number. -/
theorem foldlM_digits {whole : List Char} (h : ∀ c ∈ whole, c.isDigit = true)
    (taken : List Char) :
    whole.foldlM extend? (.digits taken) = some (.digits (whole.reverse ++ taken)) := by
  induction whole generalizing taken with
  | nil => rfl
  | cons c rest ih =>
    obtain ⟨first, others⟩ := List.forall_mem_cons.mp h
    rw [List.foldlM_cons, extend?, if_pos first, List.reverse_cons, List.append_assoc]
    exact ih others (c :: taken)

/-- Digits continue a fraction, of which the last is kept apart. -/
theorem exists_foldlM_fraction {digits : List Char} (h : ∀ c ∈ digits, c.isDigit = true)
    (whole : List Char) (last : Char) (between : List Char) :
    ∃ last' between', digits.foldlM extend? (.fraction whole last between) =
      some (.fraction whole last' between') ∧
      last' :: between' = digits.reverse ++ last :: between := by
  induction digits generalizing last between with
  | nil => exact ⟨last, between, rfl, rfl⟩
  | cons c rest ih =>
    obtain ⟨first, others⟩ := List.forall_mem_cons.mp h
    obtain ⟨last', between', taken, same⟩ := ih others c (last :: between)
    refine ⟨last', between', ?_, ?_⟩
    · rw [List.foldlM_cons, extend?, if_pos first]
      exact taken
    · rw [same, List.reverse_cons, List.append_assoc]
      rfl

theorem start_of_isAlpha {c : Char} (h : c.isAlpha = true) : start c = .word [c] := by
  rw [start, if_pos h]

theorem start_of_isDigit {c : Char} (h : c.isDigit = true) : start c = .digits [c] := by
  have noLetter : ¬ c.isAlpha = true := by
    rw [Lexicon.isAlpha_of_isDigit h]
    exact Bool.false_ne_true
  rw [start, if_neg noLetter, if_pos h]

end Pending

/-! ## Pieces -/

/-- A number that ends where it has to is cut off. -/
theorem pieces_append_number {whole fraction after : List Char}
    (h : (Piece.number whole fraction).IsLongest after) :
    pieces ((Piece.number whole fraction).text ++ after) =
      .number whole fraction :: pieces after := by
  obtain ⟨whole_ne, digits, digits', stops, noFraction⟩ := h
  have digits_taken (behind : List Char) :
      pieces (whole ++ behind) = piecesFrom (.digits whole.reverse) behind := by
    cases whole with
    | nil => exact absurd rfl whole_ne
    | cons c rest =>
      obtain ⟨first, others⟩ := List.forall_mem_cons.mp digits
      show piecesFrom (.start c) (rest ++ behind) = _
      rw [Pending.start_of_isDigit first, List.reverse_cons]
      exact piecesFrom_append_of_foldlM (Pending.foldlM_digits others [c]) behind
  have point_taken (behind : List Char) :
      piecesFrom (.digits whole.reverse) ('.' :: behind) =
        piecesFrom (.point whole.reverse) behind := rfl
  cases fraction with
  | nil =>
    show pieces (whole ++ after) = _
    rw [digits_taken]
    by_cases point : after.head? = some '.'
    · -- the point is looked at, and left to itself because no digit follows it
      obtain ⟨rest, rfl⟩ : ∃ rest, after = '.' :: rest := List.head?_eq_some_iff.mp point
      have noDigit : ∀ d ∈ rest.head?, d.isDigit = false := by
        intro d mem
        obtain ⟨more, rfl⟩ := List.head?_eq_some_iff.mp mem
        have empty := noFraction rfl
        rw [Lexicon.leadingFraction] at empty
        by_contra digit
        rw [if_pos (Bool.not_eq_false _ |>.mp digit)] at empty
        cases empty
      have stuck : ∀ d ∈ rest.head?, (Pending.point whole.reverse).extend? d = none := by
        intro d mem
        rw [Pending.extend?, noDigit d mem, if_neg Bool.false_ne_true]
      rw [point_taken, piecesFrom_of_stuck stuck, Pending.finish, List.reverse_reverse]
      show _ = Piece.number whole [] :: piecesFrom (.done (.single '.')) rest
      rw [piecesFrom_done]
      rfl
    · have stuck : ∀ c ∈ after.head?, (Pending.digits whole.reverse).extend? c = none := by
        intro c mem
        have noPoint : c ≠ '.' := fun same => point (same ▸ mem)
        rw [Pending.extend?, stops c mem, if_neg Bool.false_ne_true, if_neg noPoint]
      rw [piecesFrom_of_stuck stuck, Pending.finish, List.reverse_reverse]
      rfl
  | cons d more =>
    obtain ⟨first, others⟩ := List.forall_mem_cons.mp digits'
    obtain ⟨last, between, taken, same⟩ :=
      Pending.exists_foldlM_fraction others whole.reverse d []
    have stuck : ∀ c ∈ after.head?,
        (Pending.fraction whole.reverse last between).extend? c = none := by
      intro c mem
      rw [Pending.extend?, stops c mem, if_neg Bool.false_ne_true]
    show pieces (whole ++ '.' :: d :: more ++ after) = _
    rw [List.append_assoc, digits_taken]
    show piecesFrom (.point whole.reverse) (d :: (more ++ after)) = _
    rw [piecesFrom, Pending.extend?, if_pos first]
    show piecesFrom (.fraction whole.reverse d []) (more ++ after) = _
    rw [piecesFrom_append_of_foldlM taken, piecesFrom_of_stuck stuck, Pending.finish, same,
      List.reverse_reverse, List.reverse_append, List.reverse_reverse]
    rfl

/-- A piece that ends where it has to is cut off, and the text behind it is cut as if it began
    there. -/
theorem pieces_append {piece : Piece} {after : List Char} (h : piece.IsLongest after) :
    pieces (piece.text ++ after) = piece :: pieces after := by
  cases piece with
  | word letters =>
    obtain ⟨c, rest, rfl, letter, others, stops⟩ := h
    have stuck : ∀ d ∈ after.head?,
        (Pending.word (rest.reverse ++ [c])).extend? d = none := by
      intro d mem
      rw [Pending.extend?, stops d mem, if_neg Bool.false_ne_true]
    show piecesFrom (.start c) (rest ++ after) = _
    rw [Pending.start_of_isAlpha letter,
      piecesFrom_append_of_foldlM (Pending.foldlM_word others [c]), piecesFrom_of_stuck stuck,
      Pending.finish, List.reverse_append, List.reverse_reverse]
    rfl
  | number whole fraction => exact pieces_append_number h
  | equal =>
    have stuck : ∀ c ∈ after.head?, Pending.equal.extend? c = none := by
      intro c mem
      have other : c ≠ '=' := fun same => h (same ▸ mem)
      rw [Pending.extend?, if_neg other]
    exact piecesFrom_of_stuck stuck
  | equalEqual => exact piecesFrom_done .equalEqual after
  | single c =>
    obtain ⟨noLetter, noDigit, noSign⟩ := h
    show piecesFrom (.start c) after = _
    rw [Pending.start, noLetter, noDigit, if_neg Bool.false_ne_true, if_neg Bool.false_ne_true,
      if_neg noSign]
    exact piecesFrom_done (.single c) after

-- Digits end where letters begin, but not the other way round, and equality signs pair up from the
-- left.
example : pieces "12ab12===".toList =
    [.number ['1', '2'] [], .word ['a', 'b', '1', '2'], .equalEqual, .equal] := by
  decide

/-- Nothing stands behind a text. -/
theorem forall_mem_head?_nil {p : Char → Prop} : ∀ c ∈ ([] : List Char).head?, p c :=
  nofun

/-- What ends a piece in front of some text ends it at the end, too. -/
theorem Piece.IsLongest.nil {piece : Piece} {after : List Char} (h : piece.IsLongest after) :
    piece.IsLongest [] := by
  cases piece with
  | word letters =>
    obtain ⟨c, rest, split, letter, others, _⟩ := h
    exact ⟨c, rest, split, letter, others, forall_mem_head?_nil⟩
  | number whole fraction =>
    obtain ⟨whole_ne, digits, digits', _, _⟩ := h
    exact ⟨whole_ne, digits, digits', forall_mem_head?_nil, fun _ => rfl⟩
  | equal => exact (Option.some_ne_none '=').symm
  | equalEqual => trivial
  | single c => exact h

/-- A piece is known by its text. -/
theorem Piece.eq_of_text {piece piece' : Piece} (longest : piece.IsLongest [])
    (longest' : piece'.IsLongest []) (h : piece.text = piece'.text) : piece = piece' := by
  have cut := pieces_append longest
  rw [h, pieces_append longest'] at cut
  exact (List.cons.inj cut).1.symm

end NumScript.Source
