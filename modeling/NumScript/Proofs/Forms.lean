/-
  Forms: words, and groups of forms in parentheses.

  An outline is the text of a FORM.  A form is a word, or a group that has a word as its head and
  forms as its parts.  Words hold no delimiter, that is no space and no parenthesis; so a text of
  forms can be read in one way only (`Form.eq_of_text_append`): where a word ends is seen from the
  delimiter behind it, and where a group ends from its parenthesis.

  The induction is on the form, and what carries it is that the text behind the form may be
  anything that begins with a delimiter.  Of the text behind a part nothing else is known, since it
  holds the parts that follow and the ends of all groups around it.
-/
import NumScript.Tree.Outline

namespace NumScript

/-- What outlines are made of. -/
inductive Form where
  /-- A word of its own. -/
  | word (text : String)
  /-- A head and its parts in parentheses. -/
  | group (head : String) (parts : List Form)

namespace Form

mutual

/-- The text of a form. -/
def text : Form → String
  | word text => text
  | group head parts => parenthesize head (textAll parts)

/-- The texts of some forms. -/
def textAll : List Form → List String
  | [] => []
  | part :: rest => part.text :: textAll rest

end

/-! ## Words -/

/-- The character ends a word. -/
def isDelimiter (c : Char) : Bool :=
  c = ' ' || c = '(' || c = ')'

/-- The text has characters, and no delimiter is among them. -/
structure IsWord (text : String) : Prop where
  ne_nil : text.toList ≠ []
  inner : ∀ c ∈ text.toList, isDelimiter c = false

mutual

/-- Everything in the form that has to be a word is one. -/
def Legible : Form → Prop
  | word text => IsWord text
  | group head parts => IsWord head ∧ LegibleAll parts

/-- The same of some forms. -/
def LegibleAll : List Form → Prop
  | [] => True
  | part :: rest => part.Legible ∧ LegibleAll rest

end

/-- A word that stands before this text ends there. -/
def EndsWord (after : List Char) : Prop :=
  ∀ c ∈ after.head?, isDelimiter c = true

/-- A word ends in front of a delimiter. -/
theorem endsWord_cons {c : Char} (h : isDelimiter c = true) (rest : List Char) :
    EndsWord (c :: rest) := by
  rintro _ ⟨⟩
  exact h

/-- Where a word ends is seen from what stands behind it. -/
theorem takeWhile_word {text : String} (h : IsWord text) {after : List Char}
    (ends : EndsWord after) :
    (text.toList ++ after).takeWhile (fun c => !isDelimiter c) = text.toList := by
  have inner : ∀ c ∈ text.toList, (!isDelimiter c) = true := by
    intro c mem
    rw [h.inner c mem]
    rfl
  rw [List.takeWhile_append_of_pos inner]
  cases after with
  | nil => rw [List.takeWhile_nil, List.append_nil]
  | cons c rest =>
    rw [List.takeWhile_cons_of_neg (by rw [ends c rfl]; exact Bool.false_ne_true),
      List.append_nil]

/-- Words with delimiters behind them are told apart from what follows. -/
theorem IsWord.eq_of_append {text text' : String} (h : IsWord text) (h' : IsWord text')
    {after after' : List Char} (ends : EndsWord after) (ends' : EndsWord after')
    (same : text.toList ++ after = text'.toList ++ after') : text = text' ∧ after = after' := by
  have word : text.toList = text'.toList := by
    rw [← takeWhile_word h ends, same, takeWhile_word h' ends']
  rw [word] at same
  exact ⟨String.toList_inj.mp word, List.append_cancel_left same⟩

/-- A word does not begin like a group. -/
theorem IsWord.ne_paren {text : String} (h : IsWord text) (after rest : List Char) :
    text.toList ++ after ≠ '(' :: rest := by
  intro same
  cases chars : text.toList with
  | nil => exact h.ne_nil chars
  | cons c more =>
    rw [chars] at same
    obtain ⟨rfl, _⟩ := List.cons.inj same
    have first : '(' ∈ text.toList := chars ▸ List.mem_cons_self
    cases h.inner '(' first

/-! ## Groups -/

/-- The parts of a group as they stand behind its head. -/
def inside (parts : List String) : List Char :=
  parts.flatMap fun part => ' ' :: part.toList

/-- A group is its head and its parts between parentheses, with a blank before each part. -/
theorem toList_parenthesize (head : String) (parts : List String) :
    (parenthesize head parts).toList = '(' :: (head.toList ++ (inside parts ++ [')'])) := by
  have joined : (String.join (parts.map (" " ++ ·))).toList = inside parts := by
    rw [String.toList_join, List.flatMap_map]
    simp only [String.toList_append]
    rfl
  unfold parenthesize
  simp only [String.toList_append, joined, List.append_assoc]
  rfl

/-- Behind a head or a part stands a space or the end of the group. -/
theorem endsWord_inside (parts : List String) (after : List Char) :
    EndsWord (inside parts ++ ')' :: after) := by
  cases parts with
  | nil => exact endsWord_cons rfl after
  | cons part rest => exact endsWord_cons rfl _

/-! ## Forms are read in one way -/

mutual

/-- Forms are found again in their texts, whatever stands behind them, if it begins with a
    delimiter. -/
theorem eq_of_text_append : ∀ {f g : Form}, f.Legible → g.Legible → ∀ {after after' : List Char},
    EndsWord after → EndsWord after' → f.text.toList ++ after = g.text.toList ++ after' →
    f = g ∧ after = after'
  | word text, word text', h, h', after, after', ends, ends', same => by
    obtain ⟨rfl, rest⟩ := IsWord.eq_of_append h h' ends ends' same
    exact ⟨rfl, rest⟩
  | word text, group head parts, h, _, after, after', _, _, same => by
    rw [Form.text, Form.text, toList_parenthesize, List.cons_append] at same
    exact absurd same (IsWord.ne_paren h after _)
  | group head parts, word text, _, h, after, after', _, _, same => by
    rw [Form.text, Form.text, toList_parenthesize, List.cons_append] at same
    exact absurd same.symm (IsWord.ne_paren h after' _)
  | group head parts, group head' parts', ⟨h, inner⟩, ⟨h', inner'⟩, after, after', _, _, same => by
    have whole (head : String) (parts : List Form) (after : List Char) :
        (group head parts).text.toList ++ after =
          '(' :: (head.toList ++ (inside (textAll parts) ++ ')' :: after)) := by
      rw [Form.text, toList_parenthesize, List.cons_append, List.append_assoc, List.append_assoc,
        List.singleton_append]
    rw [whole, whole] at same
    obtain ⟨rfl, behind⟩ := IsWord.eq_of_append h h' (endsWord_inside _ after)
      (endsWord_inside _ after') (List.cons.inj same).2
    obtain ⟨rfl, rest⟩ := eq_of_inside_append inner inner' behind
    exact ⟨rfl, rest⟩

/-- Parts are found again in the text of their group, and where the group ends. -/
theorem eq_of_inside_append : ∀ {fs gs : List Form}, LegibleAll fs → LegibleAll gs →
    ∀ {after after' : List Char},
    inside (textAll fs) ++ ')' :: after = inside (textAll gs) ++ ')' :: after' →
    fs = gs ∧ after = after'
  | [], [], _, _, after, after', same => ⟨rfl, (List.cons.inj same).2⟩
  | [], g :: gs, _, _, after, after', same => nomatch (List.cons.inj same).1
  | f :: fs, [], _, _, after, after', same => nomatch (List.cons.inj same).1
  | f :: fs, g :: gs, ⟨h, others⟩, ⟨h', others'⟩, after, after', same => by
    have part (f : Form) (fs : List Form) (after : List Char) :
        inside (textAll (f :: fs)) ++ ')' :: after =
          ' ' :: (f.text.toList ++ (inside (textAll fs) ++ ')' :: after)) := by
      rw [textAll, inside, List.flatMap_cons, List.cons_append, List.cons_append,
        List.append_assoc]
      rfl
    rw [part, part] at same
    obtain ⟨rfl, behind⟩ := eq_of_text_append h h' (endsWord_inside _ after)
      (endsWord_inside _ after') (List.cons.inj same).2
    obtain ⟨rfl, rest⟩ := eq_of_inside_append others others' behind
    exact ⟨rfl, rest⟩

end

/-- Legible forms with the same text are the same. -/
theorem eq_of_text_eq {f g : Form} (h : f.Legible) (h' : g.Legible) (same : f.text = g.text) :
    f = g := by
  have ends : EndsWord [] := nofun
  exact (eq_of_text_append h h' ends ends (congrArg (·.toList ++ []) same)).1

end Form

end NumScript
