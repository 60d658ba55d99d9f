/-
  A `print` has no value.

  An expression statement discards what evaluating gives, so a `print` may stand there.  Everywhere
  else a value is needed: of an operand, of a condition, and of what is assigned or printed
  (`Program.Needs`).  It is not the `print` that checks this but whoever needs its value, when it
  has already written its line.

  So two things are shown of a run.  A `print` whose value is needed, once it has a value to write,
  writes its line and ends the run with an error on its own keyword, and this line is the last
  action (`Stmt.Needs.fails`): an error passes through all that waits for the value.  And all lines
  but one at most are written by `print`s that are statements of their own (`OneMoreAtMost`): an
  expression that comes to a value has written nothing, so a line of a `print` inside of it is only
  left when it fails, and behind a failure there is no other line.  The run fails with that error
  exactly if there is this one line more.
-/
import NumScript.Proofs.SourceOrder
import NumScript.Proofs.Stopping

namespace NumScript

open Deed Effect

/-! ## Where a value is needed -/

/-- The value of a `print` was needed. -/
def Error.noValue (keyword : Token) : Error :=
  .badValue keyword "'print' does not produce a value."

/-- To evaluate the expression in the first session, the value of this part of it is needed, which
    is evaluated in the second session. -/
inductive Expr.Operand : Expr → Session → Expr → Session → Prop where
  | assign {name : Token} {value : Expr} {s : Session} : Operand (.assign name value) s value s
  | left {left right : Expr} {op : Token} {s : Session} :
    Operand (.binary left op right) s left s
  | right {left right : Expr} {op : Token} {s u : Session} {x : Float}
    (first : left.value s = .ok x u) : Operand (.binary left op right) s right u
  | print {keyword : Token} {value : Expr} {s : Session} : Operand (.print keyword value) s value s
  | unary {op : Token} {operand : Expr} {s : Session} : Operand (.unary op operand) s operand s

/-- To evaluate the expression, the value of the second one is needed, which is evaluated in the
    second session. -/
def Expr.Needs (whole : Expr) (s : Session) (e : Expr) (u : Session) : Prop :=
  ∃ part w, whole.Operand s part w ∧ part.Evaluates w e u

mutual

/-- To execute the statement, the value of the expression is needed, which is evaluated in the
    second session. -/
inductive Stmt.Needs : Stmt → Session → Expr → Session → Prop where
  | block {brace : Token} {body : List Stmt} {s u : Session} {e : Expr}
    (inner : Stmt.NeedsAll body s e u) : Stmt.Needs (.block brace body) s e u
  /-- The value of the statement itself is not needed, but those of its operands are. -/
  | expression {whole e : Expr} {s u : Session} (inner : whole.Needs s e u) :
    Stmt.Needs (.expression whole) s e u
  | condition {keyword : Token} {condition e : Expr} {thenBranch : Stmt}
    {elseBranch : Option Stmt} {s u : Session} (inner : condition.Evaluates s e u) :
    Stmt.Needs (.choice keyword condition thenBranch elseBranch) s e u
  | thenBranch {keyword : Token} {condition e : Expr} {thenBranch : Stmt}
    {elseBranch : Option Stmt} {s w u : Session} (held : condition.holds s = .ok true w)
    (inner : Stmt.Needs thenBranch w e u) :
    Stmt.Needs (.choice keyword condition thenBranch elseBranch) s e u
  | elseBranch {keyword : Token} {condition e : Expr} {thenBranch elseBranch : Stmt}
    {s w u : Session} (held : condition.holds s = .ok false w)
    (inner : Stmt.Needs elseBranch w e u) :
    Stmt.Needs (.choice keyword condition thenBranch (some elseBranch)) s e u

/-- The same of statements that are executed in order. -/
inductive Stmt.NeedsAll : List Stmt → Session → Expr → Session → Prop where
  | first {first : Stmt} {rest : List Stmt} {s u : Session} {e : Expr}
    (inner : Stmt.Needs first s e u) : Stmt.NeedsAll (first :: rest) s e u
  | later {first : Stmt} {rest : List Stmt} {s w u : Session} {e : Expr}
    (ran : first.exec s = .ok .completed w) (inner : Stmt.NeedsAll rest w e u) :
    Stmt.NeedsAll (first :: rest) s e u

end

/-- To run the program, the value of the expression is needed, which is evaluated in the second
    session. -/
def Program.Needs (p : Program) : Session → Expr → Session → Prop :=
  Stmt.NeedsAll p.body

/-! ### Only what stands there -/

namespace Expr

variable {whole part e : Expr} {s w u : Session}

/-- What is needed for a part whose value is needed is needed for the whole. -/
theorem Operand.subset_needed (h : whole.Operand s part w) :
    part :: part.needed ⊆ whole.needed := by
  cases h with
  | assign => exact List.Subset.refl _
  | left => exact List.subset_append_left _ _
  | right first => exact List.subset_append_right _ _
  | print => exact List.Subset.refl _
  | unary => exact List.Subset.refl _

/-- What is evaluated is the expression itself or one whose value it needs. -/
theorem Evaluates.mem_needed (h : whole.Evaluates s e u) : e ∈ whole :: whole.needed := by
  induction h with
  | self => exact List.mem_cons_self
  | assign _ ih => exact List.mem_cons_of_mem _ ih
  | left _ ih => exact List.mem_cons_of_mem _ (List.mem_append_left _ ih)
  | right _ _ ih => exact List.mem_cons_of_mem _ (List.mem_append_right _ ih)
  | print _ ih => exact List.mem_cons_of_mem _ ih
  | unary _ ih => exact List.mem_cons_of_mem _ ih

/-- The expression is one of those whose values are needed. -/
theorem Needs.mem_needed (h : whole.Needs s e u) : e ∈ whole.needed := by
  obtain ⟨part, w, operand, inside⟩ := h
  exact operand.subset_needed inside.mem_needed

/-- What is evaluated, if not the expression itself, is needed. -/
theorem needs_of_evaluates (h : whole.Evaluates s e u) (other : e ≠ whole) :
    whole.Needs s e u := by
  cases h with
  | self => exact absurd rfl other
  | assign inner => exact ⟨_, _, .assign, inner⟩
  | left inner => exact ⟨_, _, .left, inner⟩
  | right first inner => exact ⟨_, _, .right first, inner⟩
  | print inner => exact ⟨_, _, .print, inner⟩
  | unary inner => exact ⟨_, _, .unary, inner⟩

end Expr

mutual

theorem Stmt.Needs.mem_needed : ∀ {stmt : Stmt} {s u : Session} {e : Expr},
    stmt.Needs s e u → e ∈ stmt.needed
  | _, _, _, _, .block inner => by
    rw [needed]
    exact inner.mem_needed
  | _, _, _, _, .expression inner => by
    rw [needed]
    exact inner.mem_needed
  | _, _, _, _, @Needs.condition _ _ _ _ elseBranch _ _ inner => by
    cases elseBranch <;> rw [choice, needed] <;> exact List.mem_append_left _ inner.mem_needed
  | _, _, _, _, @Needs.thenBranch _ _ _ _ elseBranch _ _ _ _ inner => by
    cases elseBranch <;> rw [choice, needed]
    · exact List.mem_append_right _ inner.mem_needed
    · exact List.mem_append_right _ (List.mem_append_left _ inner.mem_needed)
  | _, _, _, _, .elseBranch _ inner => by
    rw [choice, needed]
    exact List.mem_append_right _ (List.mem_append_right _ inner.mem_needed)

theorem Stmt.NeedsAll.mem_needed : ∀ {body : List Stmt} {s u : Session} {e : Expr},
    NeedsAll body s e u → e ∈ neededAll body
  | _, _, _, _, .first inner => by
    rw [neededAll]
    exact List.mem_append_left _ inner.mem_needed
  | _, _, _, _, .later _ inner => by
    rw [neededAll]
    exact List.mem_append_right _ inner.mem_needed

end

/-! ## What ends the run -/

namespace Effect

variable {α β : Type} {a : Effect α} {f : α → Effect β} {t : Session → List Action}
  {g : α → Session → List Action} {s v w : Session} {x : α} {err : Error} {last : List Action}

/-- Where the writer does not fail, the effect fails with this error and leaves this session, and
    these are its last actions. -/
def FailsWith (a : Effect α) (t : Session → List Action) (s : Session) (err : Error)
    (v : Session) (last : List Action) : Prop :=
  s.writer.NeverFails → a s = .error err v ∧ last <:+ t s

/-- What waits for the value of an effect that fails does nothing. -/
theorem FailsWith.silently (h : a.FailsWith t s err v last) : (a >>= f).FailsWith t s err v last :=
  fun sound => ⟨bind_of_error (h sound).1, (h sound).2⟩

/-- An effect whose first step fails fails like it. -/
theorem FailsWith.first (h : a.FailsWith t s err v last) :
    (a >>= f).FailsWith (fun s => t s ++ a.andThen g s) s err v last := by
  intro sound
  obtain ⟨failed, suffix⟩ := h sound
  refine ⟨bind_of_error failed, ?_⟩
  show last <:+ t s ++ a.andThen g s
  rw [andThen_of_error failed, List.append_nil]
  exact suffix

/-- Behind a first step that succeeds an effect fails like the next one. -/
theorem FailsWith.later (does : Does a t) (run : a s = .ok x w)
    (h : (f x).FailsWith (g x) w err v last) :
    (a >>= f).FailsWith (fun s => t s ++ a.andThen g s) s err v last := by
  intro sound
  obtain ⟨failed, suffix⟩ := h (does.neverFails_of_ok sound run)
  refine ⟨(bind_of_ok run).trans failed, ?_⟩
  show last <:+ t s ++ a.andThen g s
  rw [andThen_of_ok run]
  exact suffix.trans (List.suffix_append _ _)

end Effect

namespace Expr

variable {whole part e : Expr} {s u v w : Session} {x : Float} {err : Error} {last : List Action}

/-- A `print` that has a value to write writes its line, and then has no value itself. -/
theorem print_failsWith (keyword : Token) {value : Expr} (valued : value.value u = .ok x v) :
    (Expr.print keyword value).value.FailsWith (Expr.print keyword value).trace u
      (.noValue keyword) (v.wrote (Text.encode (Numeral.write x ++ "\n")))
      (value.trace u ++ [.print keyword x]) := by
  intro sound
  have sound' := (does_value value.does_eval).neverFails_of_ok sound valued
  constructor
  · rw [Expr.value, Expr.eval, value.bind_value, bind_assoc, bind_of_ok valued, bind_assoc,
      bind_of_ok (write_of_neverFails sound' _)]
    rfl
  · show _ <:+ value.trace u ++ value.value.andThen (fun x _ => [.print keyword x]) u
    rw [andThen_of_ok valued]

/-- An expression fails as the part does whose value it needs. -/
theorem Operand.fails (h : whole.Operand s part w)
    (failed : part.value.FailsWith part.trace w err v last) :
    whole.eval.FailsWith whole.trace s err v last := by
  cases h with
  | assign =>
    rw [Expr.eval, Expr.bind_value]
    exact failed.first
  | left =>
    rw [Expr.eval, Expr.bind_value]
    exact failed.first
  | @right left _ _ _ _ _ first =>
    rw [Expr.eval, Expr.bind_value]
    refine .later (does_value left.does_eval) first ?_
    rw [Expr.bind_value]
    exact failed.silently
  | print =>
    rw [Expr.eval, Expr.bind_value]
    exact failed.first
  | unary =>
    rw [Expr.eval, Expr.bind_value]
    exact failed.silently

/-- An expression fails as one does that is evaluated in it. -/
theorem Evaluates.fails (h : whole.Evaluates s e u)
    (failed : e.value.FailsWith e.trace u err v last) :
    whole.value.FailsWith whole.trace s err v last := by
  induction h with
  | self => exact failed
  | assign _ ih => exact (Operand.assign.fails (ih failed)).silently
  | left _ ih => exact (Operand.left.fails (ih failed)).silently
  | right first _ ih => exact ((Operand.right first).fails (ih failed)).silently
  | print _ ih => exact (Operand.print.fails (ih failed)).silently
  | unary _ ih => exact (Operand.unary.fails (ih failed)).silently

/-- An expression fails as one does whose value it needs. -/
theorem Needs.fails (h : whole.Needs s e u) (failed : e.value.FailsWith e.trace u err v last) :
    whole.eval.FailsWith whole.trace s err v last := by
  obtain ⟨part, w, operand, inside⟩ := h
  exact operand.fails (inside.fails failed)

end Expr

namespace Stmt

/-- A choice performs the actions of its condition and then those of one branch. -/
theorem trace_choice (keyword : Token) (condition : Expr) (thenBranch : Stmt)
    (elseBranch : Option Stmt) : (choice keyword condition thenBranch elseBranch).trace = fun s =>
      condition.trace s ++ condition.holds.andThen (fun b =>
        if b then thenBranch.trace else elseBranch.elim (fun _ => []) trace) s := by
  cases elseBranch <;> rw [choice, trace] <;> rfl

mutual

/-- A statement fails as an expression does whose value is needed. -/
theorem Needs.fails {err : Error} {v : Session} {last : List Action} :
    ∀ {stmt : Stmt} {s u : Session} {e : Expr}, stmt.Needs s e u →
    e.value.FailsWith e.trace u err v last → stmt.exec.FailsWith stmt.trace s err v last
  | _, _, _, _, .block inner, failed => by
    rw [exec, trace]
    exact inner.fails failed
  | _, _, _, _, .expression inner, failed => by
    rw [exec_expression, trace]
    exact (inner.fails failed).silently
  | _, _, _, _, .condition inner, failed => by
    rw [exec_choice, trace_choice]
    exact (inner.fails failed).silently.first
  | _, _, _, _, @Needs.thenBranch _ condition _ _ _ _ _ _ held inner, failed => by
    rw [exec_choice, trace_choice]
    exact .later condition.does_holds held (inner.fails failed)
  | _, _, _, _, @Needs.elseBranch _ condition _ _ _ _ _ _ held inner, failed => by
    rw [exec_choice, trace_choice]
    exact .later condition.does_holds held (inner.fails failed)

theorem NeedsAll.fails {err : Error} {v : Session} {last : List Action} :
    ∀ {body : List Stmt} {s u : Session} {e : Expr}, NeedsAll body s e u →
    e.value.FailsWith e.trace u err v last →
    (execAll body).FailsWith (traceAll body) s err v last
  | _, _, _, _, .first inner, failed => by
    rw [execAll, traceAll]
    exact (inner.fails failed).first
  | first :: _, _, _, _, .later ran inner, failed => by
    rw [execAll, traceAll]
    exact .later first.does_exec ran (inner.fails failed)

end

end Stmt

/-! ## Whose lines are written -/

/-- The line of an expression statement that is a `print`. -/
def Expr.ownLines : Expr → Session → List Action
  | .print keyword value => value.value.andThen fun x _ => [.print keyword x]
  | _ => fun _ => []

mutual

/-- The lines that are written by the `print`s in the statement that are statements of their own. -/
def Stmt.ownLines : Stmt → Session → List Action
  | .block _ body => ownLinesAll body
  | .expression e => e.ownLines
  | .halt _ => fun _ => []
  | .ifThen _ condition thenBranch =>
    condition.holds.andThen fun b => if b then thenBranch.ownLines else fun _ => []
  | .ifElse _ condition thenBranch elseBranch =>
    condition.holds.andThen fun b => if b then thenBranch.ownLines else elseBranch.ownLines

/-- The same of statements that are executed in order. -/
def Stmt.ownLinesAll : List Stmt → Session → List Action
  | [] => fun _ => []
  | first :: rest => fun s =>
    first.ownLines s ++ first.exec.andThen (fun
      | .completed => ownLinesAll rest
      | .halted => fun _ => []) s

end

/-- The lines that are written by the `print`s that are statements of their own. -/
def Program.ownLines (p : Program) : Session → List Action :=
  Stmt.ownLinesAll p.body

/-- All lines are own ones, or the last one is that of a `print` whose value is needed; and just
    then the run fails for want of it. -/
inductive OneMoreAtMost {α : Type} (needs : Expr → Session → Prop) :
    EStateM.Result Error Session α → List Action → List Action → Prop where
  | none {r : EStateM.Result Error Session α} {lines : List Action}
    (other : ∀ keyword v, r ≠ .error (.noValue keyword) v) : OneMoreAtMost needs r lines lines
  | one {keyword : Token} {value : Expr} {u v w : Session} {x : Float} {lines : List Action}
    (needed : needs (.print keyword value) u) (valued : value.value u = .ok x w) :
    OneMoreAtMost needs (.error (.noValue keyword) v) (lines ++ [.print keyword x]) lines

namespace OneMoreAtMost

variable {α β : Type} {needs needs' : Expr → Session → Prop} {a : Effect α} {f : α → Effect β}
  {t : Session → List Action} {g : α → Session → List Action}
  {r : EStateM.Result Error Session α} {s v : Session} {x : α} {lines own : List Action}
  {own' : α → Session → List Action}

/-- More may be needed than is accounted for. -/
theorem mono (h : OneMoreAtMost needs r lines own)
    (more : ∀ keyword value u, needs (.print keyword value) u → needs' (.print keyword value) u) :
    OneMoreAtMost needs' r lines own := by
  cases h with
  | none other => exact .none other
  | one needed valued => exact .one (more _ _ _ needed) valued

/-- What succeeds accounts for all of its lines. -/
theorem of_ok {r : EStateM.Result Error Session α} (h : r = .ok x v) :
    OneMoreAtMost needs r lines lines := by
  subst h
  exact .none fun _ _ no => nomatch no

/-- Where there is no failure, there is no other line. -/
theorem eq_of_ok (h : OneMoreAtMost needs (.ok x v : EStateM.Result Error Session α) lines own) :
    lines = own := by
  cases h
  rfl

/-- What fails is not asked for a value. -/
theorem of_error {err : Error}
    (h : OneMoreAtMost needs (.error err v : EStateM.Result Error Session α) lines own) :
    OneMoreAtMost needs (.error err v : EStateM.Result Error Session β) lines own := by
  cases h with
  | none other =>
    refine .none fun keyword w no => other keyword w ?_
    cases no
    rfl
  | one needed valued => exact .one needed valued

/-- Lines that come before are own ones. -/
theorem append_left (h : OneMoreAtMost needs r lines own) (before : List Action) :
    OneMoreAtMost needs r (before ++ lines) (before ++ own) := by
  cases h with
  | none other => exact .none other
  | one needed valued =>
    rw [← List.append_assoc]
    exact .one needed valued

/-- Only the step that fails can have a line more. -/
theorem bind (first : OneMoreAtMost needs (a s) (printing.done (t s)) own)
    (second : ∀ x u, a s = .ok x u →
      OneMoreAtMost needs (f x u) (printing.done (g x u)) (own' x u)) :
    OneMoreAtMost needs ((a >>= f) s) (printing.done (t s ++ a.andThen g s))
      (own ++ a.andThen own' s) := by
  rw [Deed.done_append]
  cases run : a s with
  | ok x u =>
    -- so far there are own lines only, and what comes next may add one
    rw [run] at first
    rw [bind_of_ok run, andThen_of_ok run, andThen_of_ok run, ← first.eq_of_ok]
    exact (second x u run).append_left _
  | error err u =>
    rw [run] at first
    rw [bind_of_error run, andThen_of_error run, andThen_of_error run, List.append_nil]
    have nothing : printing.done [] = [] := rfl
    rw [nothing, List.append_nil]
    exact first.of_error

/-- The same where there are no own lines. -/
theorem bind_nil (first : OneMoreAtMost needs (a s) (printing.done (t s)) [])
    (second : ∀ x u, a s = .ok x u →
      OneMoreAtMost needs (f x u) (printing.done (g x u)) []) :
    OneMoreAtMost needs ((a >>= f) s) (printing.done (t s ++ a.andThen g s)) [] := by
  have both := first.bind second
  rw [andThen_nil] at both
  exact both

/-- What is made of a value without an action adds no line. -/
theorem silently (first : OneMoreAtMost needs (a s) lines own)
    (second : ∀ x u, a s = .ok x u → ∀ keyword v, f x u ≠ .error (.noValue keyword) v) :
    OneMoreAtMost needs ((a >>= f) s) lines own := by
  cases run : a s with
  | ok x u =>
    rw [run] at first
    rw [bind_of_ok run, first.eq_of_ok]
    exact .none (second x u run)
  | error err u =>
    rw [run] at first
    rw [bind_of_error run]
    exact first.of_error

/-- Where the value of no `print` is needed, there are own lines only. -/
theorem of_no_print (h : OneMoreAtMost needs r lines own)
    (no : ∀ keyword value u, ¬ needs (.print keyword value) u) :
    (∀ keyword v, r ≠ .error (.noValue keyword) v) ∧ lines = own := by
  cases h with
  | none other => exact ⟨other, rfl⟩
  | one needed _ => exact absurd needed (no _ _ _)

/-- Nothing is added where only the value is changed. -/
theorem map (first : OneMoreAtMost needs (a s) lines own) (g : α → β) :
    OneMoreAtMost needs ((do let x ← a; return g x : Effect β) s) lines own := by
  refine first.silently fun x u _ keyword v no => ?_
  cases no

end OneMoreAtMost

/-! ### Only a `print` has no value -/

/-- Only an error of values is for want of the value of a `print`. -/
theorem Error.ne_noValue_of_cause {err : Error} {cause : RuntimeCause}
    (h : err.cause? = some cause) (other : cause ≠ .value) (keyword : Token) :
    err ≠ .noValue keyword := by
  rintro rfl
  exact other (Option.some.inj h).symm

/-- No operator between operands fails for want of the value of a `print`. -/
theorem Token.applyBinary_ne_noValue (op : Token) (x y : Float) (keyword : Token) :
    op.applyBinary x y ≠ .error (.noValue keyword) := by
  unfold applyBinary
  split
  case h_4 =>
    split
    · intro no
      exact Error.ne_noValue_of_cause rfl (by decide) keyword (Except.error.inj no)
    · nofun
  all_goals nofun

theorem Token.applyUnary_ne_noValue (op : Token) (x : Float) (keyword : Token) :
    op.applyUnary x ≠ .error (.noValue keyword) := by
  unfold applyUnary
  split <;> nofun

namespace Effect

variable {α β : Type} {s v : Session} {keyword : Token}

/-- What is told about an `input` is not what is told about a `print`. -/
theorem numberOf_ne_noValue (asker : Token) (line : Option String) (keyword : Token) :
    numberOf asker line ≠ .error (.noValue keyword) := by
  have other {text : String} (h : text.toList.head? ≠ some '\'') :
      (Except.error (.badValue asker text) : Except Error Float) ≠ .error (.noValue keyword) := by
    intro no
    have same : text = "'print' does not produce a value." :=
      congrArg Error.text (Except.error.inj no)
    exact h (same ▸ by decide)
  unfold numberOf
  split
  · exact other (by decide)
  · dsimp only
    split
    · nofun
    · refine other ?_
      have begins : "Could not convert '".toList.head? = some 'C' := by decide
      rw [String.append_assoc, String.toList_append, List.head?_append, begins, Option.some_or]
      decide

theorem ofExcept_ne_noValue {r : Except Error α} (h : r ≠ .error (.noValue keyword)) :
    (MonadExcept.ofExcept r : Effect α) s ≠ .error (.noValue keyword) v := by
  intro failed
  exact h (of_ofExcept_eq_error failed).1

theorem fetch_ne_noValue (name : Token) : fetch name s ≠ .error (.noValue keyword) v := by
  rw [fetch_eq]
  dsimp only
  cases s.store.get? name.lexeme with
  | some x => nofun
  | none =>
    intro no
    injection no with no
    exact Error.ne_noValue_of_cause rfl (by decide) keyword no

theorem showPrompt_ne_noValue : showPrompt s ≠ .error (.noValue keyword) v := by
  intro failed
  obtain ⟨failure, io⟩ := io_of_showPrompt failed
  cases io

theorem takeLine_ne_noValue : takeLine s ≠ .error (.noValue keyword) v := by
  intro failed
  obtain ⟨failure, io⟩ := io_of_ofDevice failed
  cases io

/-- Two steps fail for want of a value only if one of them does. -/
theorem bind_ne_noValue {a : Effect α} {f : α → Effect β}
    (first : ∀ v, a s ≠ .error (.noValue keyword) v)
    (second : ∀ x u v, f x u ≠ .error (.noValue keyword) v) :
    (a >>= f) s ≠ .error (.noValue keyword) v := by
  intro failed
  rcases of_bind_eq_error failed with failed | ⟨x, u, _, failed⟩
  · exact first v failed
  · exact second x u v failed

/-- Reading a number does not fail for want of the value of a `print`. -/
theorem readNumber_ne_noValue (asker : Token) :
    readNumber asker s ≠ .error (.noValue keyword) v := by
  refine bind_ne_noValue (fun _ => showPrompt_ne_noValue) fun _ _ _ => ?_
  refine bind_ne_noValue (fun _ => takeLine_ne_noValue) fun line _ _ => ?_
  exact ofExcept_ne_noValue (numberOf_ne_noValue asker line keyword)

end Effect

/-! ### Expressions -/

namespace Expr

/-- No line is left of an expression in which nothing asks for one. -/
theorem done_printing_of_asking {e : Expr} (h : e.asking .printing = []) (s : Session) :
    printing.done (e.trace s) = [] := by
  have none : (printing.obeyed (e.trace s)).Sublist [] := h ▸ e.obeyed_sublist .printing s
  exact List.map_eq_nil_iff.mp (List.sublist_nil.mp none)

/-- What gives a number gives it where a value is needed. -/
theorem some_bind_require (number : Effect Float) (e : Expr) :
    (do let x ← number; return some x : Effect (Option Float)) >>= Effect.require e = number := by
  rw [bind_assoc]
  exact bind_pure number

/-- An expression whose value is needed leaves a line only if the value of a `print` in it, or of
    itself, is needed in vain. -/
theorem lines_value (e : Expr) {s : Session} (sound : s.writer.NeverFails) :
    OneMoreAtMost (e.Evaluates s) (e.value s) (printing.done (e.trace s)) [] := by
  induction e generalizing s with
  | assign name value ih =>
    rw [Expr.value, Expr.eval, Expr.bind_value, bind_assoc]
    refine ((ih sound).mono fun _ _ _ => .assign).bind_nil fun x u _ => ?_
    exact .of_ok rfl
  | binary left op right ih ih' =>
    rw [Expr.value, Expr.eval, Expr.bind_value, bind_assoc]
    refine ((ih sound).mono fun _ _ _ => .left).bind_nil fun x u first => ?_
    have sound' := (does_value left.does_eval).neverFails_of_ok sound first
    rw [Expr.bind_value, bind_assoc]
    refine ((ih' sound').mono fun _ _ _ => .right first).silently fun y w _ keyword v => ?_
    rw [some_bind_require]
    exact ofExcept_ne_noValue (op.applyBinary_ne_noValue x y keyword)
  | input keyword =>
    rw [done_printing_of_asking rfl, Expr.value, Expr.eval, some_bind_require]
    exact .none fun _ _ => readNumber_ne_noValue keyword
  | literal token value => exact .of_ok rfl
  | print keyword value ih =>
    rw [Expr.value, Expr.eval, Expr.bind_value, bind_assoc]
    refine ((ih sound).mono fun _ _ _ => .print).bind_nil fun x u run => ?_
    have sound' := (does_value value.does_eval).neverFails_of_ok sound run
    -- its line is written before its own value is asked for
    rw [bind_assoc, bind_of_ok (write_of_neverFails sound' _)]
    show OneMoreAtMost _ (.error (.noValue keyword) _) ([] ++ [.print keyword x]) []
    exact .one (.self _ s) run
  | unary op operand ih =>
    rw [Expr.value, Expr.eval, Expr.bind_value, bind_assoc]
    refine ((ih sound).mono fun _ _ _ => .unary).silently fun x u _ keyword v => ?_
    rw [some_bind_require]
    exact ofExcept_ne_noValue (op.applyUnary_ne_noValue x keyword)
  | var name =>
    rw [done_printing_of_asking rfl, Expr.value, Expr.eval, some_bind_require]
    exact .none fun _ _ => fetch_ne_noValue name

/-- An expression that is no `print` itself leaves a line only if that of a `print` in it is needed
    in vain. -/
theorem lines_eval_of_ne {e : Expr} (other : ∀ keyword value, .print keyword value ≠ e)
    {s : Session} (sound : s.writer.NeverFails) :
    OneMoreAtMost (e.Needs s) (e.eval s) (printing.done (e.trace s)) [] := by
  have lines := e.lines_value sound
  cases run : e.eval s with
  | error err v =>
    rw [value_of_eval run] at lines
    exact lines.of_error.mono fun keyword value u inside =>
      needs_of_evaluates inside (other keyword value)
  | ok x v =>
    cases x with
    | none =>
      obtain ⟨keyword, value, same⟩ := exists_of_eval_none run
      exact absurd same.symm (other keyword value)
    | some x =>
      have valued : e.value s = .ok x v := bind_of_ok run
      rw [valued] at lines
      rw [lines.eq_of_ok]
      exact .of_ok rfl

/-- An expression statement that is a `print` has its own line, and may have one more inside. -/
theorem lines_eval (e : Expr) {s : Session} (sound : s.writer.NeverFails) :
    OneMoreAtMost (e.Needs s) (e.eval s) (printing.done (e.trace s)) (e.ownLines s) := by
  cases e with
  | print keyword value =>
    -- nobody asks for the value of this `print`, but it asks for that of its operand
    have inner : OneMoreAtMost ((Expr.print keyword value).Needs s) (value.value s)
        (printing.done (value.trace s)) [] :=
      (value.lines_value sound).mono fun _ _ _ inside => ⟨value, s, .print, inside⟩
    rw [Expr.eval, Expr.bind_value]
    refine inner.bind fun x u run => ?_
    have sound' := (does_value value.does_eval).neverFails_of_ok sound run
    rw [bind_of_ok (write_of_neverFails sound' _)]
    exact .of_ok rfl
  | _ =>
    refine lines_eval_of_ne (fun _ _ same => ?_) sound
    cases same

end Expr

/-! ### Statements -/

/-- Wherever the statement is executed, the lines are its own ones and at most one more. -/
def Stmt.Accounts (stmt : Stmt) : Prop :=
  ∀ {s : Session}, s.writer.NeverFails →
    OneMoreAtMost (stmt.Needs s) (stmt.exec s) (printing.done (stmt.trace s)) (stmt.ownLines s)

namespace Stmt

/-- The own lines of a choice are those of the branch that is taken. -/
theorem ownLines_choice (keyword : Token) (condition : Expr) (thenBranch : Stmt)
    (elseBranch : Option Stmt) : (choice keyword condition thenBranch elseBranch).ownLines =
      condition.holds.andThen fun b =>
        if b then thenBranch.ownLines else elseBranch.elim (fun _ => []) ownLines := by
  cases elseBranch <;> rw [choice, ownLines] <;> rfl

/-- A choice accounts for its lines if both branches do. -/
theorem accounts_choice (keyword : Token) (condition : Expr) {thenBranch : Stmt}
    (elseBranch : Option Stmt) (first : thenBranch.Accounts)
    (second : ∀ stmt ∈ elseBranch, stmt.Accounts) :
    (choice keyword condition thenBranch elseBranch).Accounts := by
  intro s sound
  have asked : OneMoreAtMost ((choice keyword condition thenBranch elseBranch).Needs s)
      (condition.holds s) (printing.done (condition.trace s)) [] :=
    ((condition.lines_value sound).map _).mono fun _ _ _ => .condition
  rw [exec_choice, trace_choice, ownLines_choice]
  refine asked.bind fun b u held => ?_
  have sound' := condition.does_holds.neverFails_of_ok sound held
  cases b with
  | true => exact (first sound').mono fun _ _ _ => .thenBranch held
  | false =>
    cases elseBranch with
    | none => exact .of_ok rfl
    | some stmt => exact (second stmt rfl sound').mono fun _ _ _ => .elseBranch held

mutual

/-- Every statement accounts for its lines. -/
theorem accounts : ∀ stmt : Stmt, stmt.Accounts
  | .block _ body => fun sound => by
    rw [exec, trace, ownLines]
    exact (accounts_all body sound).mono fun _ _ _ => .block
  | .expression e => fun sound => by
    rw [exec_expression, trace, ownLines]
    exact ((e.lines_eval sound).map _).mono fun _ _ _ => .expression
  | .halt _ => fun _ => by
    rw [exec, trace, ownLines]
    exact .of_ok rfl
  | .ifThen keyword condition thenBranch =>
    accounts_choice keyword condition none (accounts thenBranch) fun _ no => nomatch no
  | .ifElse keyword condition thenBranch elseBranch =>
    accounts_choice keyword condition (some elseBranch) (accounts thenBranch)
      fun _ same => Option.some.inj same ▸ accounts elseBranch

theorem accounts_all : ∀ (body : List Stmt) {s : Session}, s.writer.NeverFails →
    OneMoreAtMost (NeedsAll body s) (execAll body s) (printing.done (traceAll body s))
      (ownLinesAll body s)
  | [], _, _ => by
    rw [execAll, traceAll, ownLinesAll]
    exact .of_ok rfl
  | stmt :: rest, s, sound => by
    rw [execAll, traceAll, ownLinesAll]
    refine ((accounts stmt sound).mono fun _ _ _ => .first).bind fun outcome u ran => ?_
    have sound' := stmt.does_exec.neverFails_of_ok sound ran
    cases outcome with
    | completed => exact (accounts_all rest sound').mono fun _ _ _ => .later ran
    | halted => exact .of_ok rfl

end

end Stmt

/-! ## Programs -/

namespace Program

/-- A `print` has no value, and nothing else is without one.  If the value of a `print` is needed in
    a run and it has a value to write, it writes its line, and the run fails for want of its value
    as soon as the line is written; nothing is done after it.  The lines of a run are those of the
    `print`s that are statements of their own, and one more, the last, just if it fails like that.
    So a program in which the value of no `print` is needed never does. -/
theorem lines_of_run (p : Program) {s : Session} (sound : s.writer.NeverFails) :
    (∀ keyword value u x v, p.Needs s (.print keyword value) u → value.value u = .ok x v →
      p.run s = .error (.noValue keyword) (v.wrote (Text.encode (Numeral.write x ++ "\n"))) ∧
        value.trace u ++ [.print keyword x] <:+ p.trace s) ∧
    OneMoreAtMost (p.Needs s) (p.run s) (printing.done (p.trace s)) (p.ownLines s) ∧
    (p.run.after s).writer.written = s.writer.written ++ (p.trace s).flatMap Action.output ∧
    ((∀ keyword value, .print keyword value ∉ p.needed) →
      (∀ keyword v, p.run s ≠ .error (.noValue keyword) v) ∧
        printing.done (p.trace s) = p.ownLines s) := by
  have executed := p.run_eq_execAll sound.2
  have lines : OneMoreAtMost (p.Needs s) (p.run s) (printing.done (p.trace s)) (p.ownLines s) := by
    rw [executed]
    exact Stmt.accounts_all p.body sound
  refine ⟨fun keyword value u x v needed valued => ?_, lines, p.written_after_run sound,
    fun no => lines.of_no_print fun keyword value u needed => ?_⟩
  · obtain ⟨failed, suffix⟩ := needed.fails (Expr.print_failsWith keyword valued) sound
    exact ⟨executed.trans failed, suffix⟩
  · exact no keyword value needed.mem_needed

/-- Of `print 1 x = 2 + print 2 print 3` the first line is written, then that of the `print` whose
    value is needed, and then the run fails. -/
theorem lines_of_run_of_sum :
    let printing (line : Nat) : Token := ⟨.printWord, "print", line⟩
    let one : Expr := .literal ⟨.number 1.0, "1", 1⟩ 1.0
    let two : Expr := .literal ⟨.number 2.0, "2", 2⟩ 2.0
    let three : Expr := .literal ⟨.number 3.0, "3", 3⟩ 3.0
    let sum : Expr := .binary two ⟨.plus, "+", 2⟩ (.print (printing 2) two)
    let p : Program :=
      ⟨[.expression (.print (printing 1) one), .expression (.assign ⟨.identifier, "x", 2⟩ sum),
        .expression (.print (printing 3) three)]⟩
    let s : Session := { reader := ⟨[], none⟩ }
    s.writer.NeverFails ∧
      (∃ u, p.run s = .error (.noValue (printing 2)) u ∧
        u.writer.written = Text.encode "1\n2\n") ∧
      Deed.printing.done (p.trace s) = p.ownLines s ++ [.print (printing 2) 2.0] ∧
      p.ownLines s = [.print (printing 1) 1.0] := by
  intro printing one two three sum p s
  have sound : s.writer.NeverFails := ⟨rfl, rfl⟩
  let w := s.wrote (Text.encode (Numeral.write 1.0 ++ "\n"))
  have first : (Stmt.expression (.print (printing 1) one)).exec s = .ok .completed w := rfl
  have needed : p.Needs s (.print (printing 2) two) w :=
    .later first (.first (.expression ⟨sum, w, .assign, .right rfl (.self _ w)⟩))
  obtain ⟨ends, _, _, _⟩ := p.lines_of_run sound
  obtain ⟨failed, _⟩ := ends _ _ _ 2.0 w needed rfl
  refine ⟨sound, ⟨_, failed, ?_⟩, rfl, rfl⟩
  decide +kernel

end Program

end NumScript
