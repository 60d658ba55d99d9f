/-
  No run comes to an operator that is none.

  A tree has a token in the place of every operator, and evaluating fails where that token is not an
  operator of its place (`Expr.Misapplies`).  Trees that are read have none of these: whichever call
  has read them, behind whatever errors, every token in them is of the kind that it stands for
  (`Program.wellFormed_of_isRead`).  A run evaluates nothing but expressions of its tree, so it
  never fails in this way, in no session, be that a new one or one that other runs have left
  (`Program.never_misapplies`).

  That the error of such a failure is not the end of a run is not enough: a flush that fails after
  it would hide it.  So what is shown is that no expression is ever evaluated that fails like this,
  and that the run does not end like this follows from where errors come from
  (`Program.exists_fault`).
-/
import NumScript.Proofs.Diagnostics
import NumScript.Proofs.Resuming

namespace NumScript

/-! ## Programs that are read -/

/-- The program is what one of some calls on some tokens has given, the calls before it having ended
    as they may. -/
def Program.IsRead (p : Program) : Prop :=
  ∃ tokens n, .ok p ∈ Cursor.programs n ⟨tokens, 1⟩

/-- Whatever call has read it, the tokens of a program are of the kinds that they stand for. -/
theorem Program.wellFormed_of_isRead {p : Program} (h : p.IsRead) : p.WellFormed := by
  obtain ⟨tokens, n, mem⟩ := h
  rw [Cursor.programs_eq_map] at mem
  obtain ⟨i, _, read⟩ := List.mem_map.mp mem
  exact wellFormed_of_ofTokens (Cursor.ofTokens_of_program read)

/-! ## Tokens that are no operators -/

/-- The operands of the expression have values, and the token that is applied to them is no operator
    of its place. -/
inductive Expr.Misapplies : Expr → Session → Prop where
  | binary {left right : Expr} {op : Token} {u u₁ u₂ : Session} {x y : Float}
    (first : left.value u = .ok x u₁) (second : right.value u₁ = .ok y u₂)
    (unknown : op.applyBinary x y = .error (.notOperator op)) :
    Misapplies (.binary left op right) u
  | unary {operand : Expr} {op : Token} {u u₁ : Session} {x : Float}
    (value : operand.value u = .ok x u₁) (unknown : op.applyUnary x = .error (.notOperator op)) :
    Misapplies (.unary op operand) u

/-- The run comes to an expression that misapplies its token. -/
def Program.Misapplies (p : Program) (s : Session) : Prop :=
  ∃ e u, p.Evaluates s e u ∧ e.Misapplies u

/-- Operators between operands are known. -/
theorem Token.applyBinary_ne_notOperator {op : Token} (h : op.kind ∈ binaryOperators)
    (x y : Float) (t : Token) : op.applyBinary x y ≠ .error (.notOperator t) := by
  unfold applyBinary
  rcases mem_binaryOperators_iff.mp h with kind | kind | kind | kind | kind <;> rw [kind]
  case inr.inr.inr.inl =>
    show (if y == 0.0 then _ else _) ≠ _
    split <;> nofun
  all_goals nofun

theorem Token.applyUnary_ne_notOperator {op : Token} (h : op.kind = .bang) (x : Float)
    (t : Token) : op.applyUnary x ≠ .error (.notOperator t) := by
  unfold applyUnary
  rw [h]
  nofun

/-- A well-formed expression does not misapply its token. -/
theorem Expr.WellFormed.not_misapplies {e : Expr} (h : e.WellFormed) (u : Session) :
    ¬ e.Misapplies u := by
  intro misapplies
  cases misapplies with
  | binary _ _ unknown => exact Token.applyBinary_ne_notOperator h.2.1 _ _ _ unknown
  | unary _ unknown => exact Token.applyUnary_ne_notOperator h.1 _ _ unknown

namespace Program

variable {p : Program}

/-- What is evaluated in a well-formed program is well formed. -/
theorem WellFormed.of_evaluates (h : p.WellFormed) {s u : Session} {e : Expr}
    (inside : p.Evaluates s e u) : e.WellFormed :=
  (Stmt.isPart_of_mem_nodesAll (mem_nodes_of_evaluates inside)).wellFormed h

theorem WellFormed.not_misapplies (h : p.WellFormed) (s : Session) : ¬ p.Misapplies s := by
  rintro ⟨e, u, inside, misapplies⟩
  exact (h.of_evaluates inside).not_misapplies u misapplies

/-- No run of a well-formed program ends with a token that is no operator. -/
theorem WellFormed.run_ne_notOperator (h : p.WellFormed) (s s' : Session) (op : Token) :
    p.run s ≠ .error (.notOperator op) s' := by
  intro failed
  obtain ⟨u, _, fault, _⟩ := exists_fault failed nofun
  cases fault with
  | illFormed inside illFormed => exact illFormed (h.of_evaluates inside)

/-! ## Any number of runs -/

/-- Programs that are run one after the other in one session, each with the session in which its run
    begins. -/
def inTurn : List Program → Session → List (Program × Session)
  | [], _ => []
  | p :: rest, s => (p, s) :: inTurn rest (p.run.after s)

/-- Only the programs of the list are run in turn. -/
theorem mem_of_mem_inTurn {programs : List Program} {s u : Session}
    (h : (p, u) ∈ inTurn programs s) : p ∈ programs := by
  induction programs generalizing s with
  | nil => cases h
  | cons q rest ih =>
    rcases List.mem_cons.mp h with here | later
    · cases here
      exact List.mem_cons_self
    · exact List.mem_cons_of_mem q (ih later)

/-- Trees that are read are sound.  Every token in them is of the kind that it stands for: every
    block has its brace, and the list of statements that is the program has none.  And if any number
    of them are run one after the other, in whatever session, no run comes to an operator that is
    none. -/
theorem never_misapplies (programs : List Program) (read : ∀ p ∈ programs, p.IsRead) (s : Session) :
    (∀ p ∈ programs, p.WellFormed) ∧
      ∀ p u, (p, u) ∈ inTurn programs s →
        ¬ p.Misapplies u ∧ ∀ op u', p.run u ≠ .error (.notOperator op) u' := by
  have wellFormed : ∀ p ∈ programs, p.WellFormed := fun p mem => wellFormed_of_isRead (read p mem)
  refine ⟨wellFormed, ?_⟩
  intro p u mem
  have sound : p.WellFormed := wellFormed p (mem_of_mem_inTurn mem)
  exact ⟨sound.not_misapplies u, fun op u' => sound.run_ne_notOperator u u' op⟩

/-- A tree that is built and not read can come to one: `-1` has a sign in front of its operand that
    stands between operands only. -/
example (s : Session) :
    Program.Misapplies ⟨[.expression (.unary ⟨.minus, "-", 1⟩
      (.literal ⟨.number 1.0, "1", 1⟩ 1.0))]⟩ s :=
  ⟨_, s, .first (.expression (.self _ s)), .unary rfl rfl⟩

/-- Of `) x = !y` the second call reads an assignment, which is run twice where `y` has a value. -/
theorem never_misapplies_of_second_call :
    let p : Program :=
      ⟨[.expression (.assign ⟨.identifier, "x", 1⟩
        (.unary ⟨.bang, "!", 1⟩ (.var ⟨.identifier, "y", 1⟩)))]⟩
    let s : Session := { store := ⟨[("y", 1.0)]⟩, reader := ⟨[], none⟩ }
    .ok p ∈ Cursor.programs 2 ⟨[⟨.rightParen, ")", 1⟩, ⟨.identifier, "x", 1⟩, ⟨.equal, "=", 1⟩,
      ⟨.bang, "!", 1⟩, ⟨.identifier, "y", 1⟩], 1⟩ ∧
    p.WellFormed ∧ ¬ p.Misapplies s ∧ ¬ p.Misapplies (p.run.after s) := by
  intro p s
  have read : .ok p ∈ Cursor.programs 2 ⟨[⟨.rightParen, ")", 1⟩, ⟨.identifier, "x", 1⟩,
      ⟨.equal, "=", 1⟩, ⟨.bang, "!", 1⟩, ⟨.identifier, "y", 1⟩], 1⟩ :=
    List.mem_cons_of_mem _ List.mem_cons_self
  obtain ⟨wellFormed, sound⟩ := never_misapplies [p, p]
    (List.forall_mem_cons.mpr ⟨⟨_, 2, read⟩, List.forall_mem_singleton.mpr ⟨_, 2, read⟩⟩) s
  have first : (p, s) ∈ inTurn [p, p] s := List.mem_cons_self
  have second : (p, p.run.after s) ∈ inTurn [p, p] s :=
    List.mem_cons_of_mem _ List.mem_cons_self
  exact ⟨read, wellFormed p List.mem_cons_self, (sound p s first).1, (sound p _ second).1⟩

end Program

end NumScript
