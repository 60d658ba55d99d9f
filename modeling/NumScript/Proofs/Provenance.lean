/-
  Which tokens ask for the actions of a program.

  A program does nothing that its text does not say: every action in its trace is asked for by a
  token of the text that has the kind for it (`Program.asked_of_ofTokens`).  A variable is given a
  value only where its name stands, a value is written only where a `print` stands, and a line is
  read, or a prompt shown, only where an `input` stands.

  The tokens that the tree has dropped ask for nothing.  So this is shown of the trees of
  derivations, by induction over the derivation, for any session in which the run may start.
-/
import NumScript.Proofs.Actions
import NumScript.Proofs.ParserExactness

namespace NumScript

namespace Action

/-- The kind of the tokens that ask for such an action. -/
def kind : Action → TokenKind
  | assign _ _ => .identifier
  | prompt _ _ => .inputWord
  | read _ => .inputWord
  | print _ _ => .printWord

/-- One of the tokens asks for the action. -/
def AskedBy (tokens : List Token) (action : Action) : Prop :=
  action.token ∈ tokens ∧ action.token.kind = action.kind

/-- What asks for an action among some tokens asks for it among more. -/
theorem AskedBy.mono {tokens tokens' : List Token} {action : Action} (h : AskedBy tokens action)
    (subset : tokens ⊆ tokens') : AskedBy tokens' action :=
  ⟨subset h.1, h.2⟩

end Action

open NumScript.Action

/-- What holds of the actions after every value holds of those that are done. -/
theorem Effect.forall_mem_andThen {α : Type} {P : Action → Prop} {effect : Effect α}
    {next : α → Session → List Action} {s : Session}
    (h : ∀ x s', ∀ action ∈ next x s', P action) : ∀ action ∈ effect.andThen next s, P action := by
  unfold andThen
  split
  · exact h _ _
  · nofun

/-! ## Expressions -/

section Expressions

variable {tokens : List Token} {s : Session}

/-- An assignment asks for its own action and for those of its value. -/
theorem Expr.asked_assign {name : Token} {value : Expr} (mem : name ∈ tokens)
    (kind : name.kind = .identifier) (h : ∀ action ∈ value.trace s, AskedBy tokens action) :
    ∀ action ∈ (Expr.assign name value).trace s, AskedBy tokens action := by
  refine List.forall_mem_append.mpr ⟨h, Effect.forall_mem_andThen fun x _ => ?_⟩
  rw [List.forall_mem_singleton]
  exact ⟨mem, kind⟩

/-- An operator asks for nothing but what its operands ask for. -/
theorem Expr.asked_binary {left right : Expr} {op : Token}
    (h : ∀ action ∈ left.trace s, AskedBy tokens action)
    (h' : ∀ s, ∀ action ∈ right.trace s, AskedBy tokens action) :
    ∀ action ∈ (Expr.binary left op right).trace s, AskedBy tokens action :=
  List.forall_mem_append.mpr ⟨h, Effect.forall_mem_andThen fun _ s' => h' s'⟩

/-- An `input` asks for its prompt and its line. -/
theorem Expr.asked_input {keyword : Token} (mem : keyword ∈ tokens)
    (kind : keyword.kind = .inputWord) :
    ∀ action ∈ (Expr.input keyword).trace s, AskedBy tokens action := by
  refine List.forall_mem_append.mpr ⟨?_, Effect.forall_mem_andThen fun _ _ => ?_⟩
  · cases s.prompt with
    | none => nofun
    | some text =>
      show ∀ action ∈ [Action.prompt keyword text], _
      rw [List.forall_mem_singleton]
      exact ⟨mem, kind⟩
  · rw [List.forall_mem_singleton]
    exact ⟨mem, kind⟩

/-- A `print` asks for its line and for the actions of its value. -/
theorem Expr.asked_print {keyword : Token} {value : Expr} (mem : keyword ∈ tokens)
    (kind : keyword.kind = .printWord) (h : ∀ action ∈ value.trace s, AskedBy tokens action) :
    ∀ action ∈ (Expr.print keyword value).trace s, AskedBy tokens action := by
  refine List.forall_mem_append.mpr ⟨h, Effect.forall_mem_andThen fun x _ => ?_⟩
  rw [List.forall_mem_singleton]
  exact ⟨mem, kind⟩

end Expressions

namespace Grammar

mutual

/-- The actions of an expression are asked for by tokens of its derivation. -/
theorem Derivation.asked : ∀ {p : Phrase} (e : Derivation p) (s : Session),
    ∀ action ∈ e.tree.trace s, AskedBy e.tokens action
  | _, .assign name sign value name_kind _, s => by
    refine Expr.asked_assign List.mem_cons_self name_kind fun action mem => ?_
    exact (value.asked s action mem).mono fun _ h =>
      List.mem_cons_of_mem _ (List.mem_cons_of_mem _ h)
  | _, .plain e, s => e.asked s
  | _, .chain first rest, s => rest.asked first.tree
      (fun s action mem => (first.asked s action mem).mono (List.subset_append_left _ _))
      (List.subset_append_right _ _) s
  | _, .bang op operand _, s => fun action mem =>
    (operand.asked s action mem).mono (List.subset_cons_self _ _)
  | _, .primary e, s => e.asked s
  | _, .group left e right _ _, s => fun action mem =>
    (e.asked s action mem).mono fun t h => List.mem_cons_of_mem _ (List.mem_append_left _ h)
  | _, .print keyword e kind, s =>
    Expr.asked_print List.mem_cons_self kind fun action mem =>
      (e.asked s action mem).mono (List.subset_cons_self _ _)
  | _, .input keyword kind, s => Expr.asked_input List.mem_cons_self kind
  | _, .number _ _ _, _ => nofun
  | _, .name _ _, _ => nofun

/-- The operators and operands of a chain add actions that their own tokens ask for. -/
theorem Tail.asked : ∀ {level : Level} (rest : Tail level) {tokens : List Token} (left : Expr)
    (_ : ∀ s, ∀ action ∈ left.trace s, AskedBy tokens action) (_ : rest.tokens ⊆ tokens)
    (s : Session), ∀ action ∈ (rest.fold left).trace s, AskedBy tokens action
  | _, .done, _, _, h, _, s => h s
  | _, .more op operand rest _, _, left, h, subset, s =>
    rest.asked (.binary left op operand.tree)
      (fun s => Expr.asked_binary (h s) fun s action mem =>
        (operand.asked s action mem).mono fun _ h =>
          subset (List.mem_cons_of_mem _ (List.mem_append_left _ h)))
      (fun _ h => subset (List.mem_cons_of_mem _ (List.mem_append_right _ h))) s

end

/-! ## Statements -/

mutual

/-- The actions of a statement are asked for by tokens of its derivation. -/
theorem Statement.asked : ∀ (statement : Statement) (s : Session),
    ∀ action ∈ statement.tree.trace s, AskedBy statement.tokens action
  | .block left body right _ _, s => fun action mem => by
    rw [tree, Stmt.trace] at mem
    exact (askedAll body s action mem).mono fun t h =>
      List.mem_cons_of_mem _ (List.mem_append_left _ h)
  | .ifThen keyword condition thenBranch _, s => by
    rw [tree, Stmt.trace]
    refine List.forall_mem_append.mpr ⟨fun action mem => ?_,
      Effect.forall_mem_andThen fun b s' action mem => ?_⟩
    · exact (condition.asked s action mem).mono fun t h =>
        List.mem_cons_of_mem _ (List.mem_append_left _ h)
    · cases b with
      | false => cases mem
      | true => exact (thenBranch.asked s' action mem).mono fun t h =>
          List.mem_cons_of_mem _ (List.mem_append_right _ h)
  | .ifElse keyword condition thenBranch separator elseBranch _ _, s => by
    rw [tree, Stmt.trace]
    refine List.forall_mem_append.mpr ⟨fun action mem => ?_,
      Effect.forall_mem_andThen fun b s' action mem => ?_⟩
    · refine (condition.asked s action mem).mono fun t h => ?_
      simp only [tokens, List.mem_cons, List.mem_append, h, true_or, or_true]
    · cases b with
      | false =>
        refine (elseBranch.asked s' action mem).mono fun t h => ?_
        simp only [tokens, List.mem_cons, List.mem_append, h, or_true]
      | true =>
        refine (thenBranch.asked s' action mem).mono fun t h => ?_
        simp only [tokens, List.mem_cons, List.mem_append, h, true_or, or_true]
  | .halt _ _, _ => nofun
  | .expression e, s => e.asked s

theorem Statement.askedAll : ∀ (body : List Statement) (s : Session),
    ∀ action ∈ Stmt.traceAll (treeAll body) s, AskedBy (tokensAll body) action
  | [], _ => nofun
  | statement :: rest, s => by
    rw [treeAll, Stmt.traceAll]
    refine List.forall_mem_append.mpr ⟨fun action mem => ?_,
      Effect.forall_mem_andThen fun outcome s' action mem => ?_⟩
    · exact (statement.asked s action mem).mono (List.subset_append_left _ _)
    · cases outcome with
      | halted => cases mem
      | completed => exact (askedAll rest s' action mem).mono (List.subset_append_right _ _)

end

end Grammar

/-- The actions of a program are asked for by the tokens that it is read from. -/
theorem Program.asked_of_ofTokens {tokens : List Token} {p : Program} (h : ofTokens tokens = .ok p)
    (s : Session) : ∀ action ∈ p.trace s, AskedBy tokens action := by
  obtain ⟨statements, rfl, _, rfl⟩ := exists_isMeant_tree h
  exact Grammar.Statement.askedAll statements s

end NumScript
