/-
  What a program does does not depend on how its variables are called.

  Two sessions correspond if they have the same variables under other names
  (`Renaming.correspondence`): a variable is found and set under its new name where it was found and
  set under the old one, because different names stay different (`Store.get?_rename`,
  `Store.set_rename`).  So a renamed program comes to the same end as the program, up to names
  (`Program.run_rename`).

  A renamed text has the renamed tokens and makes the renamed program, so this holds of texts too
  (`Renaming.equivariant`).
-/
import NumScript.Proofs.Correspondence
import NumScript.Proofs.Diagnostics
import NumScript.Proofs.Renaming

namespace NumScript

/-! ## Errors -/

/-- The second error is the first, with the new name wherever it tells a name: in the lexeme of a
    token that does not fit, and in what is said about a variable without a value. -/
inductive Error.RenamesTo (r : Renaming) : Error → Error → Prop where
  | lexical (line : Nat) (text : String) : RenamesTo r (.lexical line text) (.lexical line text)
  | misplaced (t : Token) (text : String) :
    RenamesTo r (.misplaced t text) (.misplaced (t.rename r) text)
  | unexpectedEnd (line : Nat) (text : String) :
    RenamesTo r (.unexpectedEnd line text) (.unexpectedEnd line text)
  | undefinedName (name : Token) :
    RenamesTo r (.undefinedName name) (.undefinedName (name.rename r))
  | badValue (t : Token) (text : String) : RenamesTo r (.badValue t text) (.badValue t text)
  | arithmetic (t : Token) (text : String) : RenamesTo r (.arithmetic t text) (.arithmetic t text)
  | io (failure : IoFailure) : RenamesTo r (.io failure) (.io failure)
  | notOperator (t : Token) : RenamesTo r (.notOperator t) (.notOperator (t.rename r))

/-- The second result is the first with renamed errors, and with `f` of its value. -/
inductive Renaming.Result (r : Renaming) {α : Type} (f : α → α) :
    Except Error α → Except Error α → Prop where
  | ok (x : α) : Result r f (.ok x) (.ok (f x))
  | error {e e' : Error} (h : e.RenamesTo r e') : Result r f (.error e) (.error e')

/-! ## Sessions -/

namespace Store

variable (r : Renaming)

/-- The store with every variable renamed. -/
def rename (store : Store) : Store where
  entries := store.entries.map fun entry => (r.apply entry.1, entry.2)

variable {r}

theorem find?_rename (name : String) (entries : List (String × Float)) :
    find? (r.apply name) (entries.map fun entry => (r.apply entry.1, entry.2)) =
      find? name entries := by
  induction entries with
  | nil => rfl
  | cons entry rest ih =>
    rw [List.map_cons, find?, find?, ih]
    simp only [Renaming.apply_injective.eq_iff]

/-- In place of the renamed variable stands the same value. -/
theorem replace_rename (name : String) (value : Float) (entries : List (String × Float)) :
    replace (r.apply name) value (entries.map fun entry => (r.apply entry.1, entry.2)) =
      (replace name value entries).map fun entry => (r.apply entry.1, entry.2) := by
  induction entries with
  | nil => rfl
  | cons entry rest ih =>
    rw [List.map_cons, replace, replace, ih]
    simp only [Renaming.apply_injective.eq_iff]
    split <;> rfl

/-- A variable has under its new name the value that it has under the old one. -/
theorem get?_rename (store : Store) (name : String) :
    (store.rename r).get? (r.apply name) = store.get? name :=
  find?_rename name store.entries

theorem set_rename (store : Store) (name : String) (value : Float) :
    (store.rename r).set (r.apply name) value = (store.set name value).rename r :=
  congrArg Store.mk (replace_rename name value store.entries)

end Store

/-- The session with every variable renamed. -/
def Session.rename (r : Renaming) (s : Session) : Session :=
  { s with store := s.store.rename r }

/-! ## Two runs -/

/-- Renaming respects all that a run depends on. -/
theorem Renaming.isFaithful (r : Renaming) : Correspondence.IsFaithful (Token.rename r)
    (fun s s' => s' = s.rename r) (Error.RenamesTo r) fun _ => True where
  kind_token _ := rfl
  reader same := by rw [same]; rfl
  writer same := by rw [same]; rfl
  prompt same := by rw [same]; rfl
  get? {s s'} same t _ := by
    rw [same]
    exact s.store.get?_rename t.lexeme
  set {s s'} same t x := by
    rw [same]
    exact congrArg (Session.mk · s.reader s.writer s.prompt) (s.store.set_rename t.lexeme x)
  device same _ _ := by rw [same]; rfl
  error_io := .io
  error_undefinedName := .undefinedName
  error_badValue := .badValue
  error_arithmetic := .arithmetic
  error_notOperator := .notOperator

/-- Tokens, variables and errors correspond that have other names. -/
def Renaming.correspondence (r : Renaming) : Correspondence where
  token := Token.rename r
  session s s' := s' = s.rename r
  error := Error.RenamesTo r
  names _ := True
  faithful := r.isFaithful

/-- The second end is the first with renamed variables: the same value or the renamed error. -/
inductive Renaming.End (r : Renaming) {α : Type} :
    EStateM.Result Error Session α → EStateM.Result Error Session α → Prop where
  | ok (x : α) (s : Session) : End r (.ok x s) (.ok x (s.rename r))
  | error {e e' : Error} (h : e.RenamesTo r e') (s : Session) :
    End r (.error e s) (.error e' (s.rename r))

variable {r : Renaming}

/-- What ends alike under the renaming is the renamed end. -/
theorem Renaming.end_of_ends {α : Type} {one other : EStateM.Result Error Session α}
    (h : r.correspondence.Ends one other) : r.End one other := by
  cases h with
  | ok x same =>
    cases same
    exact .ok x _
  | error h same =>
    cases same
    exact .error h _

/-- A renamed program runs as the program does. -/
theorem Program.run_rename (p : Program) (s : Session) :
    r.End (p.run s) ((p.rename r).run (s.rename r)) :=
  Renaming.end_of_ends (Correspondence.run (Expr.allNamed_true _) s _ rfl)

/-! ## Texts -/

/-- A name is what spells a name. -/
theorem Text.isName_iff {text : String} :
    IsName text ↔ Lexicon.kind? text = some .identifier := by
  constructor
  · rintro ⟨word, name⟩
    obtain ⟨c, rest, split, first, others⟩ := Lexicon.exists_of_isName word
    have spelled := Lexicon.kind?_word first others
    rwa [← split, String.ofList_toList, name] at spelled
  · intro spelled
    rcases Lexicon.shape_of_kind? spelled with word | numeral | ⟨c, kind, rfl, sign⟩ | rfl | rfl
    · obtain ⟨c, rest, split, first, others⟩ := Lexicon.exists_of_isName word
      have same := Lexicon.kind?_word first others
      rw [← split, String.ofList_toList, spelled] at same
      exact ⟨word, (Option.some.inj same).symm⟩
    · obtain ⟨whole, fraction, split, whole_ne, digits, digits'⟩ :=
        Lexicon.exists_of_isNumeral numeral
      have same := Lexicon.kind?_number whole_ne digits digits'
      rw [split, String.ofList_toList, spelled] at same
      cases same
    · rw [Lexicon.kind?_sign sign] at spelled
      rw [spelled] at sign
      exact absurd sign (TokenKind.ofSign?_ne_identifier c)
    · cases spelled
    · cases spelled

/-- A name that stands in a text gets its new lexeme, and every other token stays as it is. -/
theorem Token.StandsIn.rename {t : Token} {source : String} (h : t.StandsIn source) :
    (t.kind = .identifier ∧ ∃ name : Text.IsName t.lexeme,
        t.rename r = { t with lexeme := (r.map ⟨t.lexeme, name⟩).val }) ∨
      (t.kind ≠ .identifier ∧ t.rename r = t) := by
  have spelled := h.spelled
  by_cases kind : t.kind = .identifier
  · rw [kind] at spelled
    have name := Text.isName_iff.mpr spelled
    exact .inl ⟨kind, name, congrArg (Token.mk t.kind · t.line) (Renaming.apply_of_isName name)⟩
  · have noName : ¬ Text.IsName t.lexeme := by
      intro name
      rw [Text.isName_iff, spelled] at name
      exact kind (Option.some.inj name)
    exact .inr ⟨kind, congrArg (Token.mk t.kind · t.line) (Renaming.apply_of_not noName)⟩

namespace Renaming

/-- Under other names a text has the renamed tokens, or the error that it had. -/
theorem tokens_rename (r : Renaming) (source : String) :
    r.Result (List.map (Token.rename r)) (Source.tokens source)
      (Source.tokens (Source.rename r source)) := by
  rw [Source.tokens_rename]
  cases cut : Source.tokens source with
  | ok tokens => exact .ok tokens
  | error e =>
    obtain ⟨line, c, rfl, _⟩ := Source.exists_of_tokens_error cut
    exact .error (.lexical line _)

/-- Under other names a text makes the renamed program, or fails with the renamed error. -/
theorem ofSource_rename (r : Renaming) (source : String) :
    r.Result (Program.rename r) (Program.ofSource source)
      (Program.ofSource (Source.rename r source)) := by
  rw [Program.ofSource_rename]
  cases made : Program.ofSource source with
  | ok p => exact .ok p
  | error e =>
    rcases Program.exists_of_ofSource_error made with ⟨line, c, rfl, _⟩ |
      ⟨tokens, _, ⟨t, _, text, rfl⟩ | ⟨last, text, _, rfl⟩⟩
    · exact .error (.lexical line _)
    · exact .error (.misplaced t text)
    · exact .error (.unexpectedEnd last.line text)

/-- Under other names a text runs as it does. -/
theorem runSource_rename (r : Renaming) (source : String) (s : Session) :
    r.End (Effect.runSource source s)
      (Effect.runSource (Source.rename r source) (s.rename r)) := by
  have made := r.ofSource_rename source
  unfold Effect.runSource
  generalize Program.ofSource source = one at made
  generalize Program.ofSource (Source.rename r source) = other at made
  cases made with
  | ok p => exact p.run_rename s
  | error h => exact .error h s

/-- How the variables are called does not matter.  The text with other names is cut into the same
    pieces but for the names, so it has the same tokens with the names renamed; it makes the renamed
    program, or fails with the renamed error; and run in a session with renamed variables, in which
    every variable has the value that it had, it comes to the same outcome or the renamed error,
    with the same output, the same input left and the renamed variables. -/
theorem equivariant (r : Renaming) (source : String) :
    Source.pieces (Source.rename r source).toList =
        (Source.pieces source.toList).map (Source.Piece.rename r) ∧
      r.Result (List.map (Token.rename r)) (Source.tokens source)
        (Source.tokens (Source.rename r source)) ∧
      (∀ tokens, Source.tokens source = .ok tokens → ∀ t ∈ tokens,
        (t.kind = .identifier ∧ ∃ name : Text.IsName t.lexeme,
            t.rename r = { t with lexeme := (r.map ⟨t.lexeme, name⟩).val }) ∨
          (t.kind ≠ .identifier ∧ t.rename r = t)) ∧
      r.Result (Program.rename r) (Program.ofSource source)
        (Program.ofSource (Source.rename r source)) ∧
      ∀ s : Session,
        (∀ name, (s.rename r).store.get? (r.apply name) = s.store.get? name) ∧
        r.End (Effect.runSource source s)
          (Effect.runSource (Source.rename r source) (s.rename r)) := by
  refine ⟨Source.pieces_rename r source, r.tokens_rename source, ?_, r.ofSource_rename source, ?_⟩
  · intro tokens cut t mem
    exact (Source.standsIn_of_tokens cut t mem).rename
  · intro s
    exact ⟨s.store.get?_rename, r.runSource_rename source s⟩

/-- With `x` and `y` swapped, a program that reads the one and fails on the other reads the other
    and fails on the one. -/
theorem equivariant_of_swap :
    let r := swap ⟨"x", by decide⟩ ⟨"y", by decide⟩
    let p (first second : String) : Program :=
      ⟨[.expression (.assign ⟨.identifier, "w", 1⟩ (.var ⟨.identifier, first, 1⟩)),
        .expression (.print ⟨.printWord, "print", 1⟩ (.var ⟨.identifier, second, 1⟩))]⟩
    let s (entries : List (String × Float)) : Session :=
      { store := ⟨entries⟩, reader := ⟨[], none⟩ }
    Source.rename r "w = x print y" = "w = y print x" ∧
    Program.ofSource "w = x print y" = .ok (p "x" "y") ∧
    Program.ofSource "w = y print x" = .ok ((p "x" "y").rename r) ∧
    (p "x" "y").rename r = p "y" "x" ∧ (s [("x", 1.0)]).rename r = s [("y", 1.0)] ∧
    Effect.runSource "w = x print y" (s [("x", 1.0)]) =
      .error (.undefinedName ⟨.identifier, "y", 1⟩) (s [("x", 1.0), ("w", 1.0)]) ∧
    Effect.runSource "w = y print x" (s [("y", 1.0)]) =
      .error (.undefinedName ⟨.identifier, "x", 1⟩) (s [("y", 1.0), ("w", 1.0)]) ∧
    r.End (Effect.runSource "w = x print y" (s [("x", 1.0)]))
      (Effect.runSource "w = y print x" (s [("y", 1.0)])) := by
  intro r p s
  have text : Source.rename r "w = x print y" = "w = y print x" := by decide +kernel
  have tree : (p "x" "y").rename r = p "y" "x" := by decide +kernel
  have session : (s [("x", 1.0)]).rename r = s [("y", 1.0)] := by
    have entries : [("x", (1.0 : Float))].map (fun entry => (r.apply entry.1, entry.2)) =
        [("y", 1.0)] := by decide +kernel
    exact congrArg s entries
  have read : Program.ofSource "w = x print y" = .ok (p "x" "y") := rfl
  obtain ⟨_, _, _, made, runs⟩ := equivariant r "w = x print y"
  obtain ⟨_, ended⟩ := runs (s [("x", 1.0)])
  rw [text, read] at made
  rw [text, session] at ended
  have read' : Program.ofSource "w = y print x" = .ok ((p "x" "y").rename r) := by
    generalize Program.ofSource "w = y print x" = result at made
    cases made
    rfl
  refine ⟨text, read, read', tree, session, ?_, ?_, ended⟩
  · rw [Effect.runSource, read]
    rfl
  · rw [Effect.runSource, read', tree]
    rfl

end Renaming

end NumScript
