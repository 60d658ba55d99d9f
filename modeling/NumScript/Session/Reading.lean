/-
  What effects do to the reader: they take bytes off its front and do nothing else to it.

  `Effect.Consumes` says so of one effect.  It holds of the effects that touch the reader and goes
  through `>>=`, so it holds of whole programs (`consumes_runSource`).  Together with
  `bytes_lt_of_readLine` this is why a session that reads its programs from the reader comes to an
  end.
-/
import NumScript.Session.Run

namespace NumScript

namespace Effect

variable {α β : Type}

/-- The session after an effect, however the effect ended. -/
def after (effect : Effect α) (s : Session) : Session :=
  match effect s with
  | .ok _ s => s
  | .error _ s => s

/-- The effect takes bytes off the front of the reader, if it changes them at all. -/
def Consumes (effect : Effect α) : Prop :=
  ∀ s, (effect.after s).reader.bytes <:+ s.reader.bytes

/-- An effect that succeeds leaves the session of its result. -/
theorem after_of_ok {effect : Effect α} {s s' : Session} {x : α} (h : effect s = .ok x s') :
    effect.after s = s' := by
  rw [after, h]

theorem after_of_error {effect : Effect α} {s s' : Session} {e : Error}
    (h : effect s = .error e s') : effect.after s = s' := by
  rw [after, h]

/-! ## Sequences -/

/-- A sequence leaves what its second effect leaves, if the first one succeeds. -/
theorem after_bind_of_ok {a : Effect α} {f : α → Effect β} {s s' : Session} {x : α}
    (h : a s = .ok x s') : (a >>= f).after s = (f x).after s' := by
  simp only [after, bind, EStateM.bind, h]

/-- A sequence whose first effect fails leaves what that one leaves. -/
theorem after_bind_of_error {a : Effect α} {f : α → Effect β} {s s' : Session} {e : Error}
    (h : a s = .error e s') : (a >>= f).after s = s' := by
  simp only [after, bind, EStateM.bind, h]

/-- What two effects take off the front in turn is taken off the front. -/
theorem Consumes.bind {a : Effect α} {f : α → Effect β} (ha : a.Consumes)
    (hf : ∀ x, (f x).Consumes) : (a >>= f).Consumes := by
  intro s
  have first := ha s
  cases h : a s with
  | ok x s' =>
    rw [after_of_ok h] at first
    rw [after_bind_of_ok h]
    exact (hf x s').trans first
  | error e s' =>
    rw [after_of_error h] at first
    rwa [after_bind_of_error h]

theorem Consumes.thenAlways {a : Effect α} {last : Effect Unit} (ha : a.Consumes)
    (hl : last.Consumes) : (a.thenAlways last).Consumes := by
  intro s
  have first := ha s
  unfold after Effect.thenAlways
  cases h : a s with
  | ok x s' =>
    rw [after_of_ok h] at first
    exact (hl.bind (fun _ => fun _ => List.suffix_rfl) s').trans first
  | error e s' =>
    rw [after_of_error h] at first
    exact (hl.bind (fun _ => fun _ => List.suffix_rfl) s').trans first

/-! ## Single effects -/

theorem consumes_pure (x : α) : (pure x : Effect α).Consumes := fun _ => List.suffix_rfl

theorem consumes_throw (e : Error) : (throw e : Effect α).Consumes := fun _ => List.suffix_rfl

theorem consumes_get : (get : Effect Session).Consumes := fun _ => List.suffix_rfl

theorem consumes_assign (name : Token) (x : Float) : (assign name x).Consumes :=
  fun _ => List.suffix_rfl

/-- To pass on a result takes nothing. -/
theorem consumes_ofExcept (r : Except Error α) : (MonadExcept.ofExcept r : Effect α).Consumes := by
  cases r <;> exact fun _ => List.suffix_rfl

/-- The session behind a device is the same whether or not the device has failed. -/
theorem after_of_ofDevice {effect : Effect α} {s s' : Session} {r : Except IoFailure α}
    (h : effect s = ofDevice r s') : effect.after s = s' := by
  rw [after, h]
  cases r <;> rfl

/-- Only the writer is changed by writing. -/
theorem after_write (text : String) (s : Session) :
    (write text).after s = { s with writer := (s.writer.put (Text.encode text)).2 } :=
  after_of_ofDevice rfl

/-- Only the writer is changed by flushing. -/
theorem after_flush (s : Session) : flush.after s = { s with writer := s.writer.flush.2 } :=
  after_of_ofDevice rfl

/-- A line is skipped by taking it. -/
theorem after_takeLine (s : Session) :
    takeLine.after s = { s with reader := s.reader.skipLine } :=
  after_of_ofDevice rfl

theorem consumes_write (text : String) : (write text).Consumes := fun s => by
  simp only [after_write, List.suffix_rfl]

theorem consumes_flush : flush.Consumes := fun s => by
  simp only [after_flush, List.suffix_rfl]

theorem consumes_announce (text : String) : (announce text).Consumes :=
  (consumes_write text).bind fun _ => consumes_flush

/-- A line is taken off the front. -/
theorem consumes_takeLine : takeLine.Consumes := fun s => by
  rw [after_takeLine]
  exact List.drop_suffix ..

theorem consumes_require (e : Expr) (x : Option Float) : (require e x).Consumes := by
  cases x
  · exact consumes_throw _
  · exact consumes_pure _

theorem consumes_fetch (name : Token) : (fetch name).Consumes := by
  refine consumes_get.bind fun s => ?_
  split
  · exact consumes_pure _
  · exact consumes_throw _

theorem consumes_showPrompt : showPrompt.Consumes := by
  refine consumes_get.bind fun s => ?_
  split
  · exact consumes_announce _
  · exact consumes_pure _

/-- A number takes one line, if its prompt can be shown. -/
theorem consumes_readNumber (keyword : Token) : (readNumber keyword).Consumes :=
  consumes_showPrompt.bind fun _ => consumes_takeLine.bind fun _ => consumes_ofExcept _

end Effect

open Effect

/-! ## Programs -/

/-- Evaluating takes bytes off the front only. -/
theorem Expr.consumes_eval : ∀ e : Expr, e.eval.Consumes
  | .assign _ value =>
    (consumes_eval value).bind fun _ => (consumes_require _ _).bind fun _ =>
      (consumes_assign _ _).bind fun _ => consumes_pure _
  | .binary left _ right =>
    (consumes_eval left).bind fun _ => (consumes_require _ _).bind fun _ =>
      (consumes_eval right).bind fun _ => (consumes_require _ _).bind fun _ =>
        (consumes_ofExcept _).bind fun _ => consumes_pure _
  | .input keyword => (consumes_readNumber keyword).bind fun _ => consumes_pure _
  | .literal .. => consumes_pure _
  | .print _ value =>
    (consumes_eval value).bind fun _ => (consumes_require _ _).bind fun _ =>
      (consumes_write _).bind fun _ => consumes_pure _
  | .unary _ operand =>
    (consumes_eval operand).bind fun _ => (consumes_require _ _).bind fun _ =>
      (consumes_ofExcept _).bind fun _ => consumes_pure _
  | .var name => (consumes_fetch name).bind fun _ => consumes_pure _

theorem Expr.consumes_holds (e : Expr) : e.holds.Consumes :=
  ((consumes_eval e).bind fun _ => consumes_require _ _).bind fun _ => consumes_pure _

mutual

theorem Stmt.consumes_exec : ∀ s : Stmt, s.exec.Consumes
  | .block _ body => by
    rw [Stmt.exec]
    exact consumes_execAll body
  | .expression e => by
    rw [Stmt.exec]
    exact (Consumes.bind e.consumes_eval fun _ => consumes_pure _).bind fun _ => consumes_pure _
  | .halt _ => by
    rw [Stmt.exec]
    exact consumes_pure _
  | .ifThen _ condition s => by
    rw [Stmt.exec]
    refine condition.consumes_holds.bind fun b => ?_
    cases b
    · exact consumes_pure _
    · exact consumes_exec s
  | .ifElse _ condition s t => by
    rw [Stmt.exec]
    refine condition.consumes_holds.bind fun b => ?_
    cases b
    · exact consumes_exec t
    · exact consumes_exec s

theorem Stmt.consumes_execAll : ∀ body : List Stmt, (Stmt.execAll body).Consumes
  | [] => by
    rw [Stmt.execAll]
    exact consumes_pure _
  | s :: rest => by
    rw [Stmt.execAll]
    refine (consumes_exec s).bind fun outcome => ?_
    cases outcome
    · exact consumes_execAll rest
    · exact consumes_pure _

end

/-- A run takes bytes off the front only. -/
theorem Program.consumes_run (p : Program) : p.run.Consumes :=
  (Stmt.consumes_execAll p.body).thenAlways consumes_flush

theorem Effect.consumes_runSource (source : String) : (runSource source).Consumes :=
  (consumes_ofExcept _).bind fun p => p.consumes_run

/-! ## Lines -/

/-- Taking a line that is there makes the rest shorter. -/
theorem Reader.length_bytes_lt_of_lineText {r : Reader} {line : String}
    (h : r.lineText = .ok (some line)) : r.skipLine.bytes.length < r.bytes.length := by
  have found : r.nextLine ≠ [] := by
    intro none
    simp only [lineText, none, List.not_mem_nil, ↓reduceIte] at h
    split at h <;> simp at h
  have joined := congrArg List.length r.nextLine_append_bytes_skipLine
  have := List.length_pos_iff.2 found
  rw [List.length_append] at joined
  omega

namespace Effect

/-- A line that was read is gone from the reader. -/
theorem bytes_lt_of_readLine {prompt line : String} {s s' : Session}
    (h : readLine prompt s = .ok (some line) s') :
    s'.reader.bytes.length < s.reader.bytes.length := by
  have before := consumes_announce prompt s
  unfold readLine at h
  simp only [bind, EStateM.bind] at h
  cases hp : announce prompt s with
  | error e s₁ => simp [hp] at h
  | ok _ s₁ =>
    rw [after_of_ok hp] at before
    simp only [hp, takeLine, Reader.readLine, ofDevice] at h
    split at h
    · rename_i found
      injection h with hline hs
      subst hline hs
      exact Nat.lt_of_lt_of_le (Reader.length_bytes_lt_of_lineText found) before.length_le
    · simp at h

end Effect

end NumScript
