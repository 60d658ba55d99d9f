/-
  Why a running program fails.

  Unless the outer world fails, a program fails at one of its expressions: a variable that has no
  value, a division by zero, an `input` that does not get a number, or a `print` whose value is
  needed.  A FAULT is such an expression that is evaluated, with what is wrong there and the session
  at that moment (`Fault`).  The error of a run is that of its fault, and nothing is done after it
  (`Program.exists_fault`).

  Errors pass through `>>=` unchanged, so the induction over the tree only has to say where each one
  comes from; an error of a part is a fault of the whole because what the part evaluates, the whole
  does (`Fault.mono`).
-/
import NumScript.Proofs.Nodes
import NumScript.Proofs.Writing

namespace NumScript

/-! ## Zeros -/

namespace Magnitude

open Float.Model Float.Model.UnpackedFloat in
/-- A double is unpacked to a zero only if all its bits but the sign are zero. -/
theorem fields_of_unpack_zero {bits : BitVec Format.binary64.numBits} {sign : Sign}
    (h : UnpackedFloat.unpack Format.binary64 bits = .zero sign) :
    unpackExponent bits = BitVec.ofNat _ 0 ∧ unpackMantissa bits = BitVec.ofNat _ 0 := by
  unfold UnpackedFloat.unpack at h
  dsimp only at h
  by_cases special : unpackExponent bits = -BitVec.ofNat _ 1
  · rw [if_pos special] at h
    by_cases infinite : unpackMantissa bits = BitVec.ofNat _ 0
    · rw [if_pos infinite] at h
      cases h
    · rw [if_neg infinite] at h
      cases h
  rw [if_neg special] at h
  by_cases exponent : unpackExponent bits = BitVec.ofNat _ 0
  · rw [if_pos exponent] at h
    by_cases mantissa : unpackMantissa bits = BitVec.ofNat _ 0
    · exact ⟨exponent, mantissa⟩
    · rw [dif_neg mantissa] at h
      cases h
  · rw [if_neg exponent] at h
    cases h

open Float.Model Float.Model.UnpackedFloat in
/-- A number that is unpacked to a zero is the zero of one of the signs. -/
theorem exists_of_unpack_zero {y : Float} {sign : Sign} (h : y.toModel.unpack = .zero sign) :
    ∃ negative, y = zero.toFloat negative := by
  have bits : y.toBits.toNat % signBit = 0 := by
    have same : y.toBits.toNat = y.toModel.toBits.toBitVec.toNat := rfl
    obtain ⟨exponent, mantissa⟩ := fields_of_unpack_zero h
    have exponent := congrArg BitVec.toNat exponent
    have mantissa := congrArg BitVec.toNat mantissa
    rw [same]
    simp only [unpackExponent, unpackMantissa, BitVec.cast_eq, BitVec.extractLsb_toNat,
      UInt64.toNat_toBitVec, Nat.shiftRight_eq_div_pow, BitVec.toNat_ofNat, Nat.zero_mod,
      Nat.reduceAdd, Nat.add_one_sub_one, Nat.reduceSub, Nat.sub_zero, Nat.reducePow, Nat.pow_zero,
      Nat.div_one] at exponent mantissa ⊢
    unfold signBit
    omega
  refine ⟨decide (signBit ≤ y.toBits.toNat), (toFloat_of_ofFloat? ?_).symm⟩
  rw [ofFloat?, ofBits?, dif_pos (bits ▸ Nat.zero_le _)]
  simp only [bits, zero]

/-- A double is equal to zero just if it is zero, with either sign. -/
theorem beq_zero_iff (y : Float) : (y == 0.0) = true ↔ ∃ negative, y = zero.toFloat negative := by
  constructor
  · intro h
    have compared : y.toModel.unpack.beq (.zero .positive) = true := h
    cases unpacked : y.toModel.unpack with
    | zero sign => exact exists_of_unpack_zero unpacked
    | infinity sign =>
      rw [unpacked] at compared
      cases sign <;> cases compared
    | notANumber =>
      rw [unpacked] at compared
      cases compared
    | finite sign mantissa exponent pos =>
      rw [unpacked] at compared
      cases sign <;> cases compared
  · rintro ⟨negative, rfl⟩
    cases negative <;> decide

end Magnitude

/-! ## Values that are needed -/

/-- The parts of the expression whose values are needed to evaluate it. -/
def Expr.needed : Expr → List Expr
  | .assign _ value => value :: value.needed
  | .binary left _ right => (left :: left.needed) ++ (right :: right.needed)
  | .input _ => []
  | .literal _ _ => []
  | .print _ value => value :: value.needed
  | .unary _ operand => operand :: operand.needed
  | .var _ => []

mutual

/-- The expressions in the statement whose values are needed. -/
def Stmt.needed : Stmt → List Expr
  | .block _ body => neededAll body
  | .expression e => e.needed
  | .halt _ => []
  | .ifThen _ condition thenBranch => (condition :: condition.needed) ++ thenBranch.needed
  | .ifElse _ condition thenBranch elseBranch =>
    (condition :: condition.needed) ++ (thenBranch.needed ++ elseBranch.needed)

/-- The expressions in some statements whose values are needed. -/
def Stmt.neededAll : List Stmt → List Expr
  | [] => []
  | s :: rest => s.needed ++ neededAll rest

end

/-- The expressions in the program whose values are needed: operands, conditions, and what is
    assigned or printed. -/
def Program.needed (p : Program) : List Expr :=
  Stmt.neededAll p.body

/-! ## Faults -/

/-- An expression that is evaluated fails with this error and leaves this session. -/
inductive Fault (evaluated : Expr → Session → Prop) (needed : List Expr) :
    Error → Session → Prop where
  /-- A variable has no value. -/
  | unbound {name : Token} {u : Session} (inside : evaluated (.var name) u)
    (unbound : u.store.get? name.lexeme = none) : Fault evaluated needed (.undefinedName name) u
  /-- The right operand of a division is a zero, of either sign. -/
  | zeroDivisor {left right : Expr} {op : Token} {u u₁ u₂ : Session} {x : Float} {negative : Bool}
    (inside : evaluated (.binary left op right) u) (kind : op.kind = .slash)
    (first : left.value u = .ok x u₁)
    (second : right.value u₁ = .ok (Magnitude.zero.toFloat negative) u₂) :
    Fault evaluated needed (.arithmetic op "Division by zero.") u₂
  /-- There is no line for an `input`. -/
  | noInput {keyword : Token} {u u₁ u₂ : Session} (inside : evaluated (.input keyword) u)
    (shown : Effect.showPrompt u = .ok () u₁) (taken : Effect.takeLine u₁ = .ok none u₂) :
    Fault evaluated needed (.badValue keyword "No input left to read.") u₂
  /-- The line for an `input` spells no number. -/
  | notNumber {keyword : Token} {u u₁ u₂ : Session} {line : String}
    (inside : evaluated (.input keyword) u) (shown : Effect.showPrompt u = .ok () u₁)
    (taken : Effect.takeLine u₁ = .ok (some line) u₂)
    (unreadable : Numeral.read? (Text.trim line) = none) :
    Fault evaluated needed
      (.badValue keyword ("Could not convert '" ++ Text.trim line ++ "' into a number.")) u₂
  /-- The value of a `print` is needed. -/
  | noValue {keyword : Token} {value : Expr} {u u₁ : Session}
    (inside : evaluated (.print keyword value) u) (mem : .print keyword value ∈ needed)
    (ended : (Expr.print keyword value).eval u = .ok none u₁) :
    Fault evaluated needed (.badValue keyword "'print' does not produce a value.") u₁
  /-- A tree that no text has. -/
  | illFormed {e : Expr} {u u₁ : Session} (inside : evaluated e u) (illFormed : ¬ e.WellFormed) :
    Fault evaluated needed (.notOperator e.token) u₁

/-- More may be evaluated, and more values be needed. -/
theorem Fault.mono {evaluated evaluated' : Expr → Session → Prop} {needed needed' : List Expr}
    {e : Error} {s : Session} (h : Fault evaluated needed e s)
    (more : ∀ e u, evaluated e u → evaluated' e u) (more' : needed ⊆ needed') :
    Fault evaluated' needed' e s := by
  cases h with
  | unbound inside unbound => exact .unbound (more _ _ inside) unbound
  | zeroDivisor inside kind first second => exact .zeroDivisor (more _ _ inside) kind first second
  | noInput inside shown taken => exact .noInput (more _ _ inside) shown taken
  | notNumber inside shown taken unreadable =>
    exact .notNumber (more _ _ inside) shown taken unreadable
  | noValue inside mem ended => exact .noValue (more _ _ inside) (more' mem) ended
  | illFormed inside illFormed => exact .illFormed (more _ _ inside) illFormed

namespace Effect

variable {α β : Type} {s s' : Session} {e : Error}

/-- An error of two steps is one of the first, or one of the second behind a value of the first. -/
theorem of_bind_eq_error {a : Effect α} {f : α → Effect β} (h : (a >>= f) s = .error e s') :
    a s = .error e s' ∨ ∃ x u, a s = .ok x u ∧ f x u = .error e s' := by
  cases run : a s with
  | ok x u =>
    rw [bind_of_ok run] at h
    exact .inr ⟨x, u, rfl, h⟩
  | error e' u =>
    rw [bind_of_error run] at h
    cases h
    exact .inl rfl

/-- A value of two steps is one of the second behind a value of the first. -/
theorem of_bind_eq_ok {a : Effect α} {f : α → Effect β} {y : β} (h : (a >>= f) s = .ok y s') :
    ∃ x u, a s = .ok x u ∧ f x u = .ok y s' := by
  cases run : a s with
  | ok x u =>
    rw [bind_of_ok run] at h
    exact ⟨x, u, rfl, h⟩
  | error e u =>
    rw [bind_of_error run] at h
    cases h

/-- Where a result fails, so does the effect that gives it, and the session stays. -/
theorem of_ofExcept_eq_error {r : Except Error α}
    (h : (MonadExcept.ofExcept r : Effect α) s = .error e s') : r = .error e ∧ s' = s := by
  cases r with
  | ok x => cases h
  | error e' =>
    cases h
    exact ⟨rfl, rfl⟩

/-- Where a result is a value, the effect that gives it leaves the session as it is. -/
theorem of_ofExcept_eq_ok {r : Except Error α} {x : α}
    (h : (MonadExcept.ofExcept r : Effect α) s = .ok x s') : r = .ok x ∧ s' = s := by
  cases r with
  | ok y =>
    cases h
    exact ⟨rfl, rfl⟩
  | error e' => cases h

/-- A device fails with an error of the outer world. -/
theorem io_of_ofDevice {r : Except IoFailure α} {u : Session}
    (h : ofDevice r u = .error e s') : ∃ failure, e = .io failure := by
  cases r with
  | ok x => cases h
  | error failure =>
    cases h
    exact ⟨failure, rfl⟩

/-- Showing the prompt fails only if the outer world does. -/
theorem io_of_showPrompt (h : showPrompt s = .error e s') : ∃ failure, e = .io failure := by
  rw [showPrompt_eq] at h
  dsimp only at h
  cases prompt : s.prompt with
  | none =>
    rw [prompt] at h
    cases h
  | some text =>
    rw [prompt] at h
    rcases of_bind_eq_error h with first | ⟨_, u, _, second⟩
    · exact io_of_ofDevice first
    · exact io_of_ofDevice second

end Effect

open Effect

/-! ## Expressions -/

/-- Only a `print` has no value. -/
theorem Expr.exists_of_eval_none {e : Expr} {s s' : Session} (h : e.eval s = .ok none s') :
    ∃ keyword value, e = .print keyword value := by
  cases e with
  | assign name value =>
    rw [eval, value.bind_value] at h
    obtain ⟨x, _, _, rest⟩ := of_bind_eq_ok h
    cases rest
  | binary left op right =>
    rw [eval, left.bind_value] at h
    obtain ⟨x, _, _, rest⟩ := of_bind_eq_ok h
    rw [right.bind_value] at rest
    obtain ⟨y, _, _, applied⟩ := of_bind_eq_ok rest
    obtain ⟨z, _, _, no⟩ := of_bind_eq_ok applied
    cases no
  | input keyword =>
    obtain ⟨x, _, _, no⟩ := of_bind_eq_ok h
    cases no
  | literal token value => cases h
  | print keyword value => exact ⟨keyword, value, rfl⟩
  | unary op operand =>
    rw [eval, operand.bind_value] at h
    obtain ⟨x, _, _, applied⟩ := of_bind_eq_ok h
    obtain ⟨z, _, _, no⟩ := of_bind_eq_ok applied
    cases no
  | var name =>
    obtain ⟨x, _, _, no⟩ := of_bind_eq_ok h
    cases no

namespace Fault

/-- If a value that is needed cannot be had, evaluating has failed or was that of a `print`. -/
theorem of_value {e : Expr} {s s' : Session} {err : Error}
    (eval : ∀ {s s' err}, e.eval s = .error err s' → (∀ failure, err ≠ .io failure) →
      Fault (e.Evaluates s) e.needed err s')
    (h : e.value s = .error err s') (inner : ∀ failure, err ≠ .io failure) :
    Fault (e.Evaluates s) (e :: e.needed) err s' := by
  rcases of_bind_eq_error h with failed | ⟨x, u, ended, missing⟩
  · exact (eval failed inner).mono (fun _ _ => id) (List.subset_cons_self _ _)
  · cases x with
    | some x => cases missing
    | none =>
      obtain ⟨keyword, value, rfl⟩ := Expr.exists_of_eval_none ended
      cases missing
      exact .noValue (.self _ s) List.mem_cons_self ended

/-- The error of an operator between operands is a fault of the expression. -/
theorem of_applyBinary {left right : Expr} {op : Token} {s s₁ s₂ : Session} {x y : Float}
    {err : Error} {evaluated : Expr → Session → Prop} {needed : List Expr}
    (inside : evaluated (.binary left op right) s) (first : left.value s = .ok x s₁)
    (second : right.value s₁ = .ok y s₂) (h : op.applyBinary x y = .error err) :
    Fault evaluated needed err s₂ := by
  unfold Token.applyBinary at h
  split at h
  · cases h
  · cases h
  · cases h
  · rename_i kind
    split at h
    · rename_i zero
      obtain ⟨negative, rfl⟩ := (Magnitude.beq_zero_iff y).mp zero
      cases h
      exact .zeroDivisor inside kind first second
    · cases h
  · cases h
  · rename_i noPlus noMinus noStar noSlash noEqual
    cases h
    refine .illFormed inside fun wellFormed => ?_
    rcases mem_binaryOperators_iff.mp wellFormed.2.1 with kind | kind | kind | kind | kind
    · exact noPlus kind
    · exact noMinus kind
    · exact noStar kind
    · exact noSlash kind
    · exact noEqual kind

/-- The error of an operator before its operand is a fault of the expression. -/
theorem of_applyUnary {operand : Expr} {op : Token} {s u : Session} {x : Float}
    {err : Error} {evaluated : Expr → Session → Prop} {needed : List Expr}
    (inside : evaluated (.unary op operand) s) (h : op.applyUnary x = .error err) :
    Fault evaluated needed err u := by
  unfold Token.applyUnary at h
  split at h
  · cases h
  · rename_i noBang
    cases h
    exact .illFormed inside fun wellFormed => noBang wellFormed.1

/-- Where reading a number fails, and the outer world does not, the `input` is at fault. -/
theorem of_readNumber {keyword : Token} {s s' : Session} {err : Error}
    {evaluated : Expr → Session → Prop} {needed : List Expr}
    (inside : evaluated (.input keyword) s) (h : readNumber keyword s = .error err s')
    (inner : ∀ failure, err ≠ .io failure) : Fault evaluated needed err s' := by
  rcases of_bind_eq_error h with failed | ⟨_, s₁, shown, rest⟩
  · obtain ⟨failure, io⟩ := io_of_showPrompt failed
    exact absurd io (inner failure)
  rcases of_bind_eq_error rest with failed | ⟨line, s₂, taken, spelled⟩
  · obtain ⟨failure, io⟩ := io_of_ofDevice failed
    exact absurd io (inner failure)
  obtain ⟨failed, rfl⟩ := of_ofExcept_eq_error spelled
  cases line with
  | none =>
    cases failed
    exact .noInput inside shown taken
  | some line =>
    unfold numberOf at failed
    dsimp only at failed
    split at failed
    · cases failed
    · rename_i unreadable
      cases failed
      exact .notNumber inside shown taken unreadable

/-- Where an expression fails, one of the expressions evaluated in it is at fault. -/
theorem of_eval : ∀ {e : Expr} {s s' : Session} {err : Error}, e.eval s = .error err s' →
    (∀ failure, err ≠ .io failure) → Fault (e.Evaluates s) e.needed err s'
  | .assign name value, s, s', err, h, inner => by
    rw [Expr.eval, value.bind_value] at h
    rcases of_bind_eq_error h with failed | ⟨x, u, _, rest⟩
    · exact (of_value of_eval failed inner).mono (fun _ _ => .assign) (List.Subset.refl _)
    · cases rest
  | .binary left op right, s, s', err, h, inner => by
    rw [Expr.eval, left.bind_value] at h
    rcases of_bind_eq_error h with failed | ⟨x, s₁, first, rest⟩
    · exact (of_value of_eval failed inner).mono (fun _ _ => .left) (List.subset_append_left _ _)
    rw [right.bind_value] at rest
    rcases of_bind_eq_error rest with failed | ⟨y, s₂, second, applied⟩
    · exact (of_value of_eval failed inner).mono (fun _ _ => .right first)
        (List.subset_append_right _ _)
    rcases of_bind_eq_error applied with failed | ⟨z, s₃, _, no⟩
    · obtain ⟨wrong, rfl⟩ := of_ofExcept_eq_error failed
      exact of_applyBinary (.self _ s) first second wrong
    · cases no
  | .input keyword, s, s', err, h, inner => by
    rcases of_bind_eq_error h with failed | ⟨x, u, _, no⟩
    · exact of_readNumber (.self _ s) failed inner
    · cases no
  | .literal _ value, s, s', err, h, inner => by cases h
  | .print keyword value, s, s', err, h, inner => by
    rw [Expr.eval, value.bind_value] at h
    rcases of_bind_eq_error h with failed | ⟨x, u, _, rest⟩
    · exact (of_value of_eval failed inner).mono (fun _ _ => .print) (List.Subset.refl _)
    rcases of_bind_eq_error rest with failed | ⟨_, v, _, no⟩
    · obtain ⟨failure, io⟩ := io_of_ofDevice failed
      exact absurd io (inner failure)
    · cases no
  | .unary op operand, s, s', err, h, inner => by
    rw [Expr.eval, operand.bind_value] at h
    rcases of_bind_eq_error h with failed | ⟨x, u, _, applied⟩
    · exact (of_value of_eval failed inner).mono (fun _ _ => .unary) (List.Subset.refl _)
    rcases of_bind_eq_error applied with failed | ⟨z, v, _, no⟩
    · obtain ⟨wrong, rfl⟩ := of_ofExcept_eq_error failed
      exact of_applyUnary (.self _ s) wrong
    · cases no
  | .var name, s, s', err, h, inner => by
    rcases of_bind_eq_error h with failed | ⟨x, u, _, no⟩
    · rw [fetch_eq] at failed
      dsimp only at failed
      split at failed
      · cases failed
      · rename_i unbound
        cases failed
        exact .unbound (.self _ s) unbound
    · cases no

/-- Where a condition fails, one of the expressions evaluated in it is at fault. -/
theorem of_holds {e : Expr} {s s' : Session} {err : Error} (h : e.holds s = .error err s')
    (inner : ∀ failure, err ≠ .io failure) : Fault (e.Evaluates s) (e :: e.needed) err s' := by
  rcases of_bind_eq_error h with failed | ⟨x, u, _, no⟩
  · exact of_value of_eval failed inner
  · cases no

/-! ## Statements -/

mutual

/-- Where a statement fails, one of the expressions evaluated in it is at fault. -/
theorem of_exec : ∀ {stmt : Stmt} {s s' : Session} {err : Error}, stmt.exec s = .error err s' →
    (∀ failure, err ≠ .io failure) → Fault (stmt.Evaluates s) stmt.needed err s'
  | .block _ body, s, s', err, h, inner => by
    rw [Stmt.exec] at h
    rw [Stmt.needed]
    exact (of_execAll h inner).mono (fun _ _ => .block) (List.Subset.refl _)
  | .expression e, s, s', err, h, inner => by
    rw [Stmt.exec] at h
    rw [Stmt.needed]
    rcases of_bind_eq_error h with discarded | ⟨_, u, _, no⟩
    · rcases of_bind_eq_error (a := e.eval) (f := fun _ => pure ()) discarded with
        failed | ⟨_, u, _, no⟩
      · exact (of_eval failed inner).mono (fun _ _ => .expression) (List.Subset.refl _)
      · cases no
    · cases no
  | .halt _, s, s', err, h, inner => by
    rw [Stmt.exec] at h
    cases h
  | .ifThen _ condition thenBranch, s, s', err, h, inner => by
    rw [Stmt.exec] at h
    rw [Stmt.needed]
    rcases of_bind_eq_error h with failed | ⟨b, u, held, branch⟩
    · exact (of_holds failed inner).mono (fun _ _ => .ifCondition) (List.subset_append_left _ _)
    · cases b with
      | true =>
        exact (of_exec branch inner).mono (fun _ _ => .ifBranch held)
          (List.subset_append_right _ _)
      | false => cases branch
  | .ifElse _ condition thenBranch elseBranch, s, s', err, h, inner => by
    rw [Stmt.exec] at h
    rw [Stmt.needed]
    rcases of_bind_eq_error h with failed | ⟨b, u, held, branch⟩
    · exact (of_holds failed inner).mono (fun _ _ => .elseCondition)
        (List.subset_append_left _ _)
    · cases b with
      | true =>
        exact (of_exec branch inner).mono (fun _ _ => .thenBranch held)
          (List.subset_append_of_subset_right _ (List.subset_append_left _ _))
      | false =>
        exact (of_exec branch inner).mono (fun _ _ => .elseBranch held)
          (List.subset_append_of_subset_right _ (List.subset_append_right _ _))

theorem of_execAll : ∀ {body : List Stmt} {s s' : Session} {err : Error},
    Stmt.execAll body s = .error err s' → (∀ failure, err ≠ .io failure) →
    Fault (Stmt.EvaluatesAll body s) (Stmt.neededAll body) err s'
  | [], s, s', err, h, inner => by
    rw [Stmt.execAll] at h
    cases h
  | stmt :: rest, s, s', err, h, inner => by
    rw [Stmt.execAll] at h
    rw [Stmt.neededAll]
    rcases of_bind_eq_error h with failed | ⟨outcome, u, ran, later⟩
    · exact (of_exec failed inner).mono (fun _ _ => .first) (List.subset_append_left _ _)
    · cases outcome with
      | completed =>
        exact (of_execAll later inner).mono (fun _ _ => .later ran) (List.subset_append_right _ _)
      | halted => cases later

end

end Fault

/-! ## Programs -/

/-- Unless the outer world fails, a program that fails does so at a fault.  Nothing is done after
    it, except that the writer is flushed. -/
theorem Program.exists_fault {p : Program} {s s' : Session} {e : Error}
    (h : p.run s = .error e s') (inner : ∀ failure, e ≠ .io failure) :
    ∃ u writer, Fault (p.Evaluates s) p.needed e u ∧ s' = { u with writer } := by
  have flushed {v v' : Session} {err : Error} (h : flush v = .error err v') :
      ∃ failure, err = .io failure := io_of_ofDevice h
  change (Stmt.execAll p.body).thenAlways flush s = _ at h
  unfold thenAlways at h
  cases ran : Stmt.execAll p.body s with
  | ok outcome u =>
    rw [ran] at h
    rcases of_bind_eq_error h with failed | ⟨_, _, _, no⟩
    · obtain ⟨failure, io⟩ := flushed failed
      exact absurd io (inner failure)
    · cases no
  | error err u =>
    rw [ran] at h
    rcases of_bind_eq_error h with failed | ⟨_, v, done, thrown⟩
    · obtain ⟨failure, io⟩ := flushed failed
      exact absurd io (inner failure)
    · cases thrown
      refine ⟨u, u.writer.flush.2, Fault.of_execAll ran inner, ?_⟩
      rw [← after_of_ok done, after_flush]

end NumScript
