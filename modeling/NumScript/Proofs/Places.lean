/-
  Where tokens and unrecognised characters stand in a text.

  A token of a text STANDS somewhere in it: its lexeme is a part of the text, spells its kind, and
  begins on its line, which is one more than the line ends before it (`Source.standsIn_of_tokens`).
  A text that is not made of tokens and blanks alone has a first character that is neither
  (`Source.FirstUnrecognised`), and the error of the text is about this character
  (`Source.exists_of_tokens_error`).

  Both are read off the segments that the text is cut into.
-/
import NumScript.Proofs.Joining

namespace NumScript

/-! ## Lines of a text -/

/-- The line is one of the text. -/
def Source.HasLine (source : String) (line : Nat) : Prop :=
  1 ≤ line ∧ line ≤ 1 + source.toList.count '\n'

/-- Any place of a text is on one of its lines. -/
theorem Source.hasLine_of_append {source : String} {before after : List Char}
    (split : source.toList = before ++ after) : HasLine source (1 + before.count '\n') := by
  have lines := congrArg (List.count '\n') split
  rw [List.count_append] at lines
  unfold HasLine
  omega

/-- The lexeme of the token is a part of the text and begins on this line, and it spells the kind of
    the token. -/
structure Token.StandsIn (t : Token) (source : String) : Prop where
  spelled : Lexicon.kind? t.lexeme = some t.kind
  exists_place : ∃ before after, source.toList = before ++ t.lexeme.toList ++ after ∧
    t.line = 1 + before.count '\n'

/-- A token that stands in the text is on one of its lines. -/
theorem Token.StandsIn.hasLine {t : Token} {source : String} (h : t.StandsIn source) :
    Source.HasLine source t.line := by
  obtain ⟨before, after, split, line⟩ := h.exists_place
  rw [List.append_assoc] at split
  rw [line]
  exact Source.hasLine_of_append split

/-! ## Segments of a text -/

namespace Source

/-- The text is made of these segments, side by side, each of which fits its place. -/
structure IsMadeOf (source : String) (segments : List Segment) : Prop where
  text : segments.flatMap Segment.text = source.toList
  fits : ∀ before segment after, segments = before ++ segment :: after →
    segment.Fits (before.flatMap Segment.text) (after.flatMap Segment.text)

/-- Every text is made of segments, from which its items are read. -/
theorem exists_isMadeOf (source : String) : ∃ segments : List Segment,
    IsMadeOf source segments ∧ items source = segments.filterMap Segment.item? := by
  have longest := allLongest_piecesFrom (p := .nothing) trivial source.toList
  obtain ⟨segments, text, items, fits⟩ := exists_segments [] longest
  exact ⟨segments, ⟨text.trans (flatMap_text_pieces source.toList), fits⟩, items⟩

/-- What the text is made of splits it at each segment. -/
theorem IsMadeOf.split {source : String} {before after : List Segment} {segment : Segment}
    (h : IsMadeOf source (before ++ segment :: after)) :
    source.toList =
      before.flatMap Segment.text ++ (segment.text ++ after.flatMap Segment.text) := by
  rw [← h.text, List.flatMap_append, List.flatMap_cons]

/-- A segment that is read as a token is the token. -/
theorem Segment.eq_token_of_item? {segment : Segment} {t : Token}
    (h : segment.item? = some (.ok t)) : segment = .token t := by
  cases segment with
  | token t' => rw [Except.ok.inj (Option.some.inj h)]
  | unrecognised line c => cases h
  | skipped c => cases h

/-- Everything in a text that is read as a token stands there. -/
theorem standsIn_of_mem_items {source : String} {t : Token} (mem : .ok t ∈ items source) :
    t.StandsIn source := by
  obtain ⟨segments, made, items⟩ := exists_isMadeOf source
  rw [items] at mem
  obtain ⟨segment, inside, read⟩ := List.mem_filterMap.mp mem
  obtain rfl := Segment.eq_token_of_item? read
  obtain ⟨before, after, rfl⟩ := List.append_of_mem inside
  obtain ⟨line, spelled, _⟩ := made.fits before (.token t) after rfl
  exact ⟨spelled, before.flatMap Segment.text, after.flatMap Segment.text,
    by rw [made.split, List.append_assoc]; rfl, line⟩

/-- The tokens of a text stand in it. -/
theorem standsIn_of_tokens {source : String} {tokens : List Token}
    (h : Source.tokens source = .ok tokens) : ∀ t ∈ tokens, t.StandsIn source := by
  intro t mem
  have items : items source = tokens.map .ok := tokensOf_eq_ok_iff.mp h
  refine standsIn_of_mem_items ?_
  rw [items]
  exact List.mem_map_of_mem mem

/-! ## Characters that are not recognised -/

/-- The segment is no error. -/
def Segment.IsRecognised : Segment → Prop
  | .unrecognised _ _ => False
  | _ => True

/-- This character is on this line and neither begins a token nor means nothing, and before it the
    text is made of tokens and blanks. -/
def FirstUnrecognised (source : String) (line : Nat) (c : Char) : Prop :=
  ∃ front behind, IsMadeOf source (front ++ .unrecognised line c :: behind) ∧
    ∀ segment ∈ front, segment.IsRecognised

/-- The first character that is not recognised is on one of the lines. -/
theorem FirstUnrecognised.hasLine {source : String} {line : Nat} {c : Char}
    (h : FirstUnrecognised source line c) : HasLine source line := by
  obtain ⟨front, behind, made, _⟩ := h
  obtain ⟨here, _⟩ := made.fits front _ behind rfl
  rw [here]
  exact hasLine_of_append made.split

/-- The first of some segments that is not recognised is their error. -/
theorem exists_of_tokensOf_error {segments : List Segment} {e : Error}
    (h : tokensOf (segments.filterMap Segment.item?) = .error e) :
    ∃ front line c behind, segments = front ++ .unrecognised line c :: behind ∧
      (∀ segment ∈ front, segment.IsRecognised) ∧ e = .unexpectedCharacter line c := by
  induction segments with
  | nil => cases h
  | cons segment rest ih =>
    have later (recognised : segment.IsRecognised)
        (others : tokensOf (rest.filterMap Segment.item?) = .error e) :
        ∃ front line c behind, segment :: rest = front ++ .unrecognised line c :: behind ∧
          (∀ segment ∈ front, segment.IsRecognised) ∧ e = .unexpectedCharacter line c := by
      obtain ⟨front, line, c, behind, rfl, all, same⟩ := ih others
      exact ⟨segment :: front, line, c, behind, rfl,
        List.forall_mem_cons.mpr ⟨recognised, all⟩, same⟩
    cases segment with
    | token t =>
      refine later trivial ?_
      have read : (tokensOf (rest.filterMap Segment.item?)).map (t :: ·) = .error e := h
      cases others : tokensOf (rest.filterMap Segment.item?) with
      | ok tokens =>
        rw [others] at read
        cases read
      | error e' =>
        rw [others] at read
        cases read
        rfl
    | skipped c => exact later trivial h
    | unrecognised line c =>
      cases h
      exact ⟨[], line, c, rest, rfl, nofun, rfl⟩

/-- The error of a text that cannot be cut into tokens is about the first character that is not
    recognised. -/
theorem exists_of_tokens_error {source : String} {e : Error} (h : tokens source = .error e) :
    ∃ line c, e = .unexpectedCharacter line c ∧ FirstUnrecognised source line c := by
  obtain ⟨segments, made, items⟩ := exists_isMadeOf source
  rw [tokens, items] at h
  obtain ⟨front, line, c, behind, rfl, recognised, rfl⟩ := exists_of_tokensOf_error h
  exact ⟨line, c, rfl, front, behind, made, recognised⟩

end Source

end NumScript
