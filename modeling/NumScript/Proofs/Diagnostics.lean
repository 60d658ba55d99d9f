/-
  Every error of a text points at its cause.

  A DIAGNOSIS of an error says what is wrong and where (`Diagnosis`): the first character that is
  not recognised, a token that does not fit, the last token behind which something is missing, or
  the expression at which the run fails, with its token in the text.  Every error with which a
  source text fails has one, unless the outer world has failed, and its line is a line of the text
  (`Effect.diagnosis_of_runSource`).

  The token of an expression is one that the tree has kept, and all tokens of a tree are tokens of
  the text (`Program.isPart_of_evaluates`).  For a variable more is needed: the tree has dropped the
  signs of its assignments, so that a name is read and not assigned has to be shown on derivations,
  which keep them.  Nothing that can stand behind an expression begins with `=`
  (`Grammar.Derivation.isReadIn`).
-/
import NumScript.Proofs.Faults
import NumScript.Proofs.KeptTokens
import NumScript.Proofs.Places

namespace NumScript

/-! ## Names that are read -/

/-- The name is among the tokens, and the token behind it is no `=`. -/
def Token.IsReadIn (name : Token) (tokens : List Token) : Prop :=
  ∃ before behind, tokens = before ++ name :: behind ∧ ∀ next ∈ behind.head?, next.kind ≠ .equal

namespace Token.IsReadIn

variable {name : Token} {tokens : List Token}

theorem append_right (h : name.IsReadIn tokens) (front : List Token) :
    name.IsReadIn (front ++ tokens) := by
  obtain ⟨before, behind, rfl, noEqual⟩ := h
  exact ⟨front ++ before, behind, (List.append_assoc _ _ _).symm, noEqual⟩

/-- What follows may only turn a name that is read into one that is assigned to. -/
theorem append_left (h : name.IsReadIn tokens) {n : Nat} {after : List Token}
    (stops : Stops n after) : name.IsReadIn (tokens ++ after) := by
  obtain ⟨before, behind, rfl, noEqual⟩ := h
  refine ⟨before, behind ++ after, List.append_assoc _ _ _, ?_⟩
  cases behind with
  | nil => exact fun next mem => (stops next mem).2
  | cons next more => exact noEqual

theorem cons (h : name.IsReadIn tokens) (t : Token) : name.IsReadIn (t :: tokens) :=
  h.append_right [t]

end Token.IsReadIn

namespace Grammar

/-- What a tail begins with is an operator of its level and goes on with nothing tighter. -/
theorem Tail.stops_tokens {level : Level} (r : Tail level) :
    Stops (level.rank + 1) r.tokens := by
  have stops := r.stops (Stops.nil level.rank)
  rw [List.append_nil] at stops
  exact stops

/-- A statement begins with no operator and no `=`. -/
theorem Statement.stops_tokens (s : Statement) : Stops 1 s.tokens := by
  have stops := s.stops []
  rw [List.append_nil] at stops
  exact stops

theorem Statement.stops_tokensAll (statements : List Statement) :
    Stops 1 (tokensAll statements) := by
  have stops := (Stops.tokensAll statements .nil).1
  rw [List.append_nil] at stops
  exact stops

variable {name : Token}

mutual

/-- The variables of an expression are names that are read. -/
theorem Derivation.isReadIn : ∀ {p : Phrase} (d : Derivation p), .var name ∈ d.tree.nodes →
    name.IsReadIn d.tokens
  | _, .assign target sign value _ _, mem => by
    rw [Derivation.tree, Expr.nodes] at mem
    rcases List.mem_cons.mp mem with no | inner
    · cases no
    · exact ((value.isReadIn inner).cons sign).cons target
  | _, .plain e, mem => e.isReadIn mem
  | _, .chain first rest, mem => by
    rw [Derivation.tree] at mem
    rw [Derivation.tokens]
    rcases rest.isReadIn mem with inner | inner
    · exact (first.isReadIn inner).append_left rest.stops_tokens
    · exact inner.append_right first.tokens
  | _, .bang op operand _, mem => by
    rw [Derivation.tree, Expr.nodes] at mem
    rcases List.mem_cons.mp mem with no | inner
    · cases no
    · exact (operand.isReadIn inner).cons op
  | _, .primary e, mem => e.isReadIn mem
  | _, .group left e right _ right_kind, mem => by
    have stops : Stops 1 [right] := .of_kind right_kind (by decide) (by decide) []
    exact ((e.isReadIn mem).append_left stops).cons left
  | _, .print keyword e _, mem => by
    rw [Derivation.tree, Expr.nodes] at mem
    rcases List.mem_cons.mp mem with no | inner
    · cases no
    · exact (e.isReadIn inner).cons keyword
  | _, .input keyword _, mem => by cases List.mem_singleton.mp mem
  | _, .number token value _, mem => by cases List.mem_singleton.mp mem
  | _, .name token _, mem => by
    cases List.mem_singleton.mp mem
    exact ⟨[], [], rfl, nofun⟩

/-- The variables that operators add to an expression are names that are read. -/
theorem Tail.isReadIn : ∀ {level : Level} (r : Tail level) {left : Expr},
    .var name ∈ (r.fold left).nodes → .var name ∈ left.nodes ∨ name.IsReadIn r.tokens
  | _, .done, left, mem => .inl mem
  | _, .more op operand rest kind, left, mem => by
    rw [Tail.tokens]
    rcases rest.isReadIn mem with both | later
    · rw [Expr.nodes] at both
      rcases List.mem_cons.mp both with no | parts
      · cases no
      · rcases List.mem_append.mp parts with inner | inner
        · exact .inl inner
        · exact .inr (((operand.isReadIn inner).append_left rest.stops_tokens).cons op)
    · exact .inr ((later.append_right operand.tokens).cons op)

end

mutual

/-- A variable in the tree of a statement is a name among its tokens that is read. -/
theorem Statement.isReadIn : ∀ (s : Statement), .var name ∈ s.tree.nodes → name.IsReadIn s.tokens
  | .block left body right _ right_kind, mem => by
    have stops : Stops 1 [right] := .of_kind right_kind (by decide) (by decide) []
    rw [tree, Stmt.nodes] at mem
    exact ((isReadIn_all body mem).append_left stops).cons left
  | .ifThen keyword condition thenBranch _, mem => by
    rw [tree, Stmt.nodes] at mem
    rcases List.mem_append.mp mem with inner | inner
    · exact ((condition.isReadIn inner).append_left thenBranch.stops_tokens).cons keyword
    · exact ((isReadIn thenBranch inner).append_right condition.tokens).cons keyword
  | .ifElse keyword condition thenBranch separator elseBranch _ separator_kind, mem => by
    have stops : Stops 1 (separator :: elseBranch.tokens) :=
      .of_kind separator_kind (by decide) (by decide) elseBranch.tokens
    rw [tree, Stmt.nodes] at mem
    rw [tokens]
    rcases List.mem_append.mp mem with inner | branches
    · have first := (condition.isReadIn inner).append_left thenBranch.stops_tokens
      exact (first.append_left stops).cons keyword
    · rcases List.mem_append.mp branches with inner | inner
      · have first := (isReadIn thenBranch inner).append_right condition.tokens
        exact (first.append_left stops).cons keyword
      · exact (((isReadIn elseBranch inner).cons separator).append_right _).cons keyword
  | .halt keyword _, mem => by cases mem
  | .expression e, mem => by
    rw [tree, Stmt.nodes] at mem
    exact e.isReadIn mem

theorem Statement.isReadIn_all : ∀ (statements : List Statement),
    .var name ∈ Stmt.nodesAll (treeAll statements) → name.IsReadIn (tokensAll statements)
  | [], mem => by cases mem
  | s :: rest, mem => by
    rw [treeAll, Stmt.nodesAll] at mem
    rw [tokensAll]
    rcases List.mem_append.mp mem with inner | inner
    · exact (isReadIn s inner).append_left (stops_tokensAll rest)
    · exact (isReadIn_all rest inner).append_right s.tokens

end

end Grammar

/-- The variables of a program are names that are read. -/
theorem Program.isReadIn {tokens : List Token} {p : Program} {name : Token}
    (h : ofTokens tokens = .ok p) (mem : .var name ∈ p.nodes) : name.IsReadIn tokens := by
  obtain ⟨statements, rfl, _, rfl⟩ := exists_isMeant_tree h
  exact Grammar.Statement.isReadIn_all statements mem

/-! ## Tokens of the expressions that are evaluated -/

/-- The expression is a part of something with these tokens, and well formed if that is. -/
structure Expr.IsPart (e : Expr) (tokens : List Token) (wellFormed : Prop) : Prop where
  token : e.token ∈ tokens
  wellFormed : wellFormed → e.WellFormed

/-- A part stays a part if there is more around it. -/
theorem Expr.IsPart.mono {e : Expr} {tokens tokens' : List Token} {wellFormed wellFormed' : Prop}
    (h : e.IsPart tokens wellFormed) (more : tokens ⊆ tokens')
    (whole : wellFormed' → wellFormed) : e.IsPart tokens' wellFormed' :=
  ⟨more h.token, h.wellFormed ∘ whole⟩

theorem Expr.isPart_self (e : Expr) : e.IsPart e.tokens e.WellFormed := by
  refine ⟨?_, id⟩
  cases e with
  | binary left op right => exact List.mem_append_right _ List.mem_cons_self
  | _ => exact List.mem_cons_self

/-- All nodes of an expression are parts of it. -/
theorem Expr.isPart_of_mem_nodes : ∀ {whole e : Expr}, e ∈ whole.nodes →
    e.IsPart whole.tokens whole.WellFormed
  | .assign name value, e, mem => by
    rcases List.mem_cons.mp mem with rfl | inner
    · exact isPart_self _
    · exact (isPart_of_mem_nodes inner).mono (List.subset_cons_self _ _) And.right
  | .binary left op right, e, mem => by
    rcases List.mem_cons.mp mem with rfl | parts
    · exact isPart_self _
    rcases List.mem_append.mp parts with inner | inner
    · exact (isPart_of_mem_nodes inner).mono (List.subset_append_left _ _) And.left
    · exact (isPart_of_mem_nodes inner).mono
        (List.subset_append_of_subset_right _ (List.subset_cons_self _ _)) fun w => w.2.2
  | .input keyword, e, mem => by
    obtain rfl := List.mem_singleton.mp mem
    exact isPart_self _
  | .literal token value, e, mem => by
    obtain rfl := List.mem_singleton.mp mem
    exact isPart_self _
  | .print keyword value, e, mem => by
    rcases List.mem_cons.mp mem with rfl | inner
    · exact isPart_self _
    · exact (isPart_of_mem_nodes inner).mono (List.subset_cons_self _ _) And.right
  | .unary op operand, e, mem => by
    rcases List.mem_cons.mp mem with rfl | inner
    · exact isPart_self _
    · exact (isPart_of_mem_nodes inner).mono (List.subset_cons_self _ _) And.right
  | .var name, e, mem => by
    obtain rfl := List.mem_singleton.mp mem
    exact isPart_self _

mutual

/-- All expressions in a statement are parts of it. -/
theorem Stmt.isPart_of_mem_nodes : ∀ {stmt : Stmt} {e : Expr}, e ∈ stmt.nodes →
    e.IsPart stmt.tokens stmt.WellFormed
  | .block brace body, e, mem => by
    rw [nodes] at mem
    rw [tokens, WellFormed]
    exact (isPart_of_mem_nodesAll mem).mono (List.subset_cons_self _ _) And.right
  | .expression whole, e, mem => by
    rw [nodes] at mem
    rw [tokens, WellFormed]
    exact Expr.isPart_of_mem_nodes mem
  | .halt keyword, e, mem => by
    rw [nodes] at mem
    cases mem
  | .ifThen keyword condition thenBranch, e, mem => by
    rw [nodes] at mem
    rw [tokens, WellFormed]
    rcases List.mem_append.mp mem with inner | inner
    · exact (Expr.isPart_of_mem_nodes inner).mono
        (List.subset_cons_of_subset _ (List.subset_append_left _ _)) fun w => w.2.1
    · exact (isPart_of_mem_nodes inner).mono
        (List.subset_cons_of_subset _ (List.subset_append_right _ _)) fun w => w.2.2
  | .ifElse keyword condition thenBranch elseBranch, e, mem => by
    rw [nodes] at mem
    rw [tokens, WellFormed, List.append_assoc]
    rcases List.mem_append.mp mem with inner | branches
    · exact (Expr.isPart_of_mem_nodes inner).mono
        (List.subset_cons_of_subset _ (List.subset_append_left _ _)) fun w => w.2.1
    rcases List.mem_append.mp branches with inner | inner
    · exact (isPart_of_mem_nodes inner).mono (List.subset_cons_of_subset _
        (List.subset_append_of_subset_right _ (List.subset_append_left _ _))) fun w => w.2.2.1
    · exact (isPart_of_mem_nodes inner).mono (List.subset_cons_of_subset _
        (List.subset_append_of_subset_right _ (List.subset_append_right _ _))) fun w => w.2.2.2

theorem Stmt.isPart_of_mem_nodesAll : ∀ {body : List Stmt} {e : Expr}, e ∈ nodesAll body →
    e.IsPart (tokensAll body) (WellFormedAll body)
  | [], e, mem => by
    rw [nodesAll] at mem
    cases mem
  | stmt :: rest, e, mem => by
    rw [nodesAll] at mem
    rw [tokensAll, WellFormedAll]
    rcases List.mem_append.mp mem with inner | inner
    · exact (isPart_of_mem_nodes inner).mono (List.subset_append_left _ _) And.left
    · exact (isPart_of_mem_nodesAll inner).mono (List.subset_append_right _ _) And.right

end

/-- What is evaluated when a program runs has its token in the text, and it is of the right kind. -/
theorem Program.isPart_of_evaluates {tokens : List Token} {p : Program} {e : Expr} {s u : Session}
    (made : ofTokens tokens = .ok p) (h : p.Evaluates s e u) : e.IsPart tokens True := by
  have part : e.IsPart p.tokens p.WellFormed :=
    Stmt.isPart_of_mem_nodesAll (mem_nodes_of_evaluates h)
  rw [tokens_of_ofTokens made] at part
  exact part.mono (fun t => Token.mem_of_mem_kept) fun _ => wellFormed_of_ofTokens made

/-! ## Errors of texts that are no programs -/

/-- Tokens that are no program have one that does not fit, or something is missing behind the last
    one. -/
theorem Program.misplaced_or_unexpectedEnd {tokens : List Token} {e : Error}
    (h : ofTokens tokens = .error e) :
    (∃ t ∈ tokens, ∃ text, e = .misplaced t text) ∨
      ∃ last text, tokens.getLast? = some last ∧ e = .unexpectedEnd last.line text := by
  rcases Cursor.readFrom_error (Prod.ext h rfl) with ⟨front, t, rest, d, rfl, _, stuck, _⟩ |
    ⟨d, line, reached, missing, _, same⟩
  · exact .inl ⟨t, List.mem_append_right _ List.mem_cons_self, Draft.misplaced_of_step stuck⟩
  · obtain ⟨text, rfl⟩ := Draft.unexpectedEnd_of_finish missing
    cases last : tokens.getLast? with
    | none =>
      -- nothing is missing in an empty program
      rw [List.getLast?_eq_none_iff.mp last] at h
      cases h
    | some t =>
      rw [last] at same
      exact .inr ⟨t, text, rfl, congrArg (Error.unexpectedEnd · text) same⟩

/-- A text that is no program has a character that is not recognised, a token that does not fit, or
    something is missing behind it. -/
theorem Program.exists_of_ofSource_error {source : String} {e : Error}
    (h : ofSource source = .error e) :
    (∃ line c, e = .unexpectedCharacter line c ∧ Source.FirstUnrecognised source line c) ∨
      ∃ tokens, Source.tokens source = .ok tokens ∧
        ((∃ t ∈ tokens, ∃ text, e = .misplaced t text) ∨
          ∃ last text, tokens.getLast? = some last ∧ e = .unexpectedEnd last.line text) := by
  unfold ofSource at h
  cases cut : Source.tokens source with
  | error e' =>
    rw [cut] at h
    cases h
    exact .inl (Source.exists_of_tokens_error cut)
  | ok tokens =>
    rw [cut] at h
    exact .inr ⟨tokens, rfl, misplaced_or_unexpectedEnd h⟩

/-! ## Diagnoses -/

/-- The text is cut into these tokens, and they make this program. -/
structure Source.Spells (source : String) (tokens : List Token) (p : Program) : Prop where
  cut : Source.tokens source = .ok tokens
  made : Program.ofTokens tokens = .ok p

/-- A text that is read as a program spells it. -/
theorem Source.exists_spells {source : String} {p : Program} (h : Program.ofSource source = .ok p) :
    ∃ tokens, Spells source tokens p := by
  unfold Program.ofSource at h
  cases cut : Source.tokens source with
  | ok tokens =>
    rw [cut] at h
    exact ⟨tokens, cut, h⟩
  | error e =>
    rw [cut] at h
    cases h

/-- What is wrong with a source text that ends with this error when it is run in the session `s`,
    and with this session behind it. -/
inductive Diagnosis (source : String) (s : Session) : Error → Session → Prop where
  /-- A character that is not recognised, the first one in the text. -/
  | unrecognised {line : Nat} {c : Char} (first : Source.FirstUnrecognised source line c) :
    Diagnosis source s (.unexpectedCharacter line c) s
  /-- A token that does not fit. -/
  | misplaced {tokens : List Token} {t : Token} {text : String}
    (cut : Source.tokens source = .ok tokens) (mem : t ∈ tokens) :
    Diagnosis source s (.misplaced t text) s
  /-- Something is missing behind the last token. -/
  | atEnd {tokens : List Token} {last : Token} {text : String}
    (cut : Source.tokens source = .ok tokens) (isLast : tokens.getLast? = some last) :
    Diagnosis source s (.unexpectedEnd last.line text) s
  /-- A name that is read, and not assigned, where it has no value. -/
  | undefinedName {tokens : List Token} {p : Program} {name : Token} {u : Session} {writer : Writer}
    (spells : Source.Spells source tokens p) (kind : name.kind = .identifier)
    (read : name.IsReadIn tokens) (inside : p.Evaluates s (.var name) u)
    (unbound : u.store.get? name.lexeme = none) :
    Diagnosis source s (.undefinedName name) { u with writer }
  /-- A division whose right operand is a zero, of either sign. -/
  | zeroDivisor {tokens : List Token} {p : Program} {left right : Expr} {slash : Token}
    {u u₁ u₂ : Session} {x : Float} {negative : Bool} {writer : Writer}
    (spells : Source.Spells source tokens p) (kind : slash.kind = .slash) (mem : slash ∈ tokens)
    (inside : p.Evaluates s (.binary left slash right) u) (first : left.value u = .ok x u₁)
    (second : right.value u₁ = .ok (Magnitude.zero.toFloat negative) u₂) :
    Diagnosis source s (.arithmetic slash "Division by zero.") { u₂ with writer }
  /-- An `input` for which there is no line. -/
  | noInput {tokens : List Token} {p : Program} {keyword : Token} {u u₁ u₂ : Session}
    {writer : Writer} (spells : Source.Spells source tokens p) (kind : keyword.kind = .inputWord)
    (mem : keyword ∈ tokens) (inside : p.Evaluates s (.input keyword) u)
    (shown : Effect.showPrompt u = .ok () u₁) (taken : Effect.takeLine u₁ = .ok none u₂) :
    Diagnosis source s (.badValue keyword "No input left to read.") { u₂ with writer }
  /-- An `input` that takes a line that spells no number. -/
  | notNumber {tokens : List Token} {p : Program} {keyword : Token} {line : String}
    {u u₁ u₂ : Session} {writer : Writer} (spells : Source.Spells source tokens p)
    (kind : keyword.kind = .inputWord) (mem : keyword ∈ tokens)
    (inside : p.Evaluates s (.input keyword) u) (shown : Effect.showPrompt u = .ok () u₁)
    (taken : Effect.takeLine u₁ = .ok (some line) u₂)
    (unreadable : Numeral.read? (Text.trim line) = none) :
    Diagnosis source s
      (.badValue keyword ("Could not convert '" ++ Text.trim line ++ "' into a number."))
      { u₂ with writer }
  /-- A `print` whose value is needed. -/
  | noValue {tokens : List Token} {p : Program} {keyword : Token} {value : Expr} {u u₁ : Session}
    {writer : Writer} (spells : Source.Spells source tokens p) (kind : keyword.kind = .printWord)
    (mem : keyword ∈ tokens) (needed : .print keyword value ∈ p.needed)
    (inside : p.Evaluates s (.print keyword value) u)
    (ended : (Expr.print keyword value).eval u = .ok none u₁) :
    Diagnosis source s (.badValue keyword "'print' does not produce a value.")
      { u₁ with writer }

namespace Diagnosis

variable {source : String} {s s' : Session} {e : Error}

/-- The error of a text that is no program has a diagnosis. -/
theorem of_ofSource (s : Session) (h : Program.ofSource source = .error e) :
    Diagnosis source s e s := by
  rcases Program.exists_of_ofSource_error h with ⟨line, c, rfl, first⟩ |
    ⟨tokens, cut, ⟨t, mem, text, rfl⟩ | ⟨last, text, isLast, rfl⟩⟩
  · exact .unrecognised first
  · exact .misplaced cut mem
  · exact .atEnd cut isLast

/-- A fault of the run is one of the text.  It is never that of a tree that no text has. -/
theorem of_fault {tokens : List Token} {p : Program} {u : Session} (writer : Writer)
    (spells : Source.Spells source tokens p) (h : Fault (p.Evaluates s) p.needed e u) :
    Diagnosis source s e { u with writer } := by
  have part {e : Expr} {u : Session} (inside : p.Evaluates s e u) :
      e.token ∈ tokens ∧ e.WellFormed := by
    have part := Program.isPart_of_evaluates spells.made inside
    exact ⟨part.token, part.wellFormed trivial⟩
  cases h with
  | unbound inside unbound =>
    have read := Program.isReadIn spells.made (Program.mem_nodes_of_evaluates inside)
    exact .undefinedName spells (part inside).2 read inside unbound
  | zeroDivisor inside kind first second =>
    exact .zeroDivisor spells kind (part inside).1 inside first second
  | noInput inside shown taken =>
    exact .noInput spells (part inside).2 (part inside).1 inside shown taken
  | notNumber inside shown taken unreadable =>
    exact .notNumber spells (part inside).2 (part inside).1 inside shown taken unreadable
  | noValue inside needed ended =>
    exact .noValue spells (part inside).2.1 (part inside).1 needed inside ended
  | illFormed inside illFormed => exact absurd (part inside).2 illFormed

/-- The line of an error is a line of the text. -/
theorem exists_hasLine (h : Diagnosis source s e s') :
    ∃ line, e.line? = some line ∧ Source.HasLine source line := by
  have place {tokens : List Token} {t : Token} (cut : Source.tokens source = .ok tokens)
      (mem : t ∈ tokens) : Source.HasLine source t.line :=
    (Source.standsIn_of_tokens cut t mem).hasLine
  cases h with
  | unrecognised first => exact ⟨_, rfl, first.hasLine⟩
  | misplaced cut mem => exact ⟨_, rfl, place cut mem⟩
  | atEnd cut isLast => exact ⟨_, rfl, place cut (List.mem_of_getLast? isLast)⟩
  | undefinedName spells _ _ inside _ =>
    exact ⟨_, rfl, place spells.cut (Program.isPart_of_evaluates spells.made inside).token⟩
  | zeroDivisor spells _ mem => exact ⟨_, rfl, place spells.cut mem⟩
  | noInput spells _ mem => exact ⟨_, rfl, place spells.cut mem⟩
  | notNumber spells _ mem => exact ⟨_, rfl, place spells.cut mem⟩
  | noValue spells _ mem => exact ⟨_, rfl, place spells.cut mem⟩

end Diagnosis

namespace Effect

/-- Every error points at its cause.  If running a source text fails, and not because the outer
    world does, the error has a diagnosis, its line is a line of the text, and every token that a
    diagnosis names stands in the text on its line. -/
theorem diagnosis_of_runSource {source : String} {s s' : Session} {e : Error}
    (h : runSource source s = .error e s') (inner : ∀ failure, e ≠ .io failure) :
    Diagnosis source s e s' ∧ (∃ line, e.line? = some line ∧ Source.HasLine source line) ∧
      ∀ tokens, Source.tokens source = .ok tokens → ∀ t ∈ tokens, t.StandsIn source := by
  have diagnosis : Diagnosis source s e s' := by
    rcases of_bind_eq_error h with unread | ⟨p, u, read, failed⟩
    · obtain ⟨wrong, rfl⟩ := of_ofExcept_eq_error unread
      exact .of_ofSource s' wrong
    · obtain ⟨spelled, rfl⟩ := of_ofExcept_eq_ok read
      obtain ⟨tokens, spells⟩ := Source.exists_spells spelled
      obtain ⟨v, writer, fault, rfl⟩ := Program.exists_fault failed inner
      exact .of_fault writer spells fault
  exact ⟨diagnosis, diagnosis.exists_hasLine, fun _ => Source.standsIn_of_tokens⟩

/-- In `x = y` on the second line of a text it is `y` that has no value: `x` is assigned. -/
theorem diagnosis_of_runSource_of_unbound :
    let s : Session := { reader := ⟨[], none⟩ }
    let e : Error := .runtime 2 .name "Name 'y' is not defined."
    runSource "\nx = y" s = .error e s ∧ Diagnosis "\nx = y" s e s ∧
      Source.HasLine "\nx = y" 2 := by
  intro s e
  have failed : runSource "\nx = y" s = .error e s := rfl
  obtain ⟨diagnosis, ⟨line, same, inside⟩, _⟩ := diagnosis_of_runSource failed nofun
  obtain rfl : 2 = line := Option.some.inj same
  exact ⟨failed, diagnosis, inside⟩

end Effect

end NumScript
