/-
  What programs do, action by action.

  A program touches its session in four ways only: it gives a variable a value, shows the prompt,
  takes a line off the reader, and writes a value.  The TRACE of a program in a session lists these
  ACTIONS in the order in which they happen, up to the end of the run, however it ends
  (`Expr.trace`, `Stmt.trace`).

  The trace is all that a run does.  Nothing that a program decides depends on the writer; so with
  any other writer it does the same actions, up to the first that fails there, and only the end of
  the run is then another (`Effect.Replays`).  In particular, performing the actions one after the
  other leads through the sessions of the run to the one in which it ends
  (`Effect.Replays.performAll`).

  `Effect.Does` says of an effect how it is put together from single actions: there is one case for
  each kind of action, one for what does nothing, and one for `>>=`.  Programs are made of actions
  (`Stmt.does_execAll`), and what is made of actions replays them (`Effect.Does.replays`), keeps
  what each action keeps (`Effect.Does.preserves`), and meets failures of the outer world only where
  it reads or where writing fails (`Effect.Does.ne_io`).
-/
import NumScript.Session.Reading

namespace NumScript

/-! ## Actions -/

/-- Something that a program does to its session. -/
inductive Action where
  /-- A variable is given a value. -/
  | assign (name : Token) (value : Float)
  /-- A prompt is shown, because a number is about to be read. -/
  | prompt (keyword : Token) (text : String)
  /-- A line is taken off the reader. -/
  | read (keyword : Token)
  /-- A value is written. -/
  | print (keyword : Token) (value : Float)

namespace Action

/-- The token of the program that asks for the action. -/
def token : Action → Token
  | assign name _ => name
  | prompt keyword _ => keyword
  | read keyword => keyword
  | print keyword _ => keyword

/-- The bytes that the action writes. -/
def output : Action → List UInt8
  | assign _ _ => []
  | prompt _ text => Text.encode text
  | read _ => []
  | print _ value => Text.encode (Numeral.write value ++ "\n")

/-- Whether the action shows a prompt. -/
def isPrompt : Action → Bool
  | prompt _ _ => true
  | _ => false

/-- What the action does.  A line that is taken is gone, whatever it holds; so only writing can
    fail. -/
def perform : Action → Effect Unit
  | assign name value => Effect.assign name value
  | prompt _ text => Effect.announce text
  | read _ => modify fun s => { s with reader := s.reader.skipLine }
  | print _ value => Effect.write (Numeral.write value ++ "\n")

/-- Performs actions one after the other, up to the first that fails. -/
def performAll : List Action → Effect Unit
  | [] => pure ()
  | action :: rest => do
    action.perform
    performAll rest

/-- Actions are performed in the order in which they are listed. -/
theorem performAll_append (actions actions' : List Action) :
    performAll (actions ++ actions') = (do performAll actions; performAll actions') := by
  induction actions with
  | nil => rfl
  | cons action rest ih => rw [List.cons_append, performAll, ih, performAll, bind_assoc]

end Action

/-! ## Traces -/

/-- What is done after an effect that gave a value; after one that failed, nothing is. -/
def Effect.andThen {α : Type} (effect : Effect α) (next : α → Session → List Action)
    (s : Session) : List Action :=
  match effect s with
  | .ok x s => next x s
  | .error _ _ => []

/-- The actions of evaluating an expression. -/
def Expr.trace : Expr → Session → List Action
  | .assign name value => fun s =>
    value.trace s ++ value.value.andThen (fun x _ => [.assign name x]) s
  | .binary left _ right => fun s =>
    left.trace s ++ left.value.andThen (fun _ => right.trace) s
  | .input keyword => fun s =>
    (s.prompt.map (.prompt keyword)).toList ++
      Effect.showPrompt.andThen (fun _ _ => [.read keyword]) s
  | .literal _ _ => fun _ => []
  | .print keyword value => fun s =>
    value.trace s ++ value.value.andThen (fun x _ => [.print keyword x]) s
  | .unary _ operand => operand.trace
  | .var _ => fun _ => []

mutual

/-- The actions of executing a statement. -/
def Stmt.trace : Stmt → Session → List Action
  | .block _ body => traceAll body
  | .expression e => e.trace
  | .halt _ => fun _ => []
  | .ifThen _ condition thenBranch => fun s =>
    condition.trace s ++
      condition.holds.andThen (fun b => if b then thenBranch.trace else fun _ => []) s
  | .ifElse _ condition thenBranch elseBranch => fun s =>
    condition.trace s ++
      condition.holds.andThen (fun b => if b then thenBranch.trace else elseBranch.trace) s

/-- The actions of executing statements in order, up to the first that halts. -/
def Stmt.traceAll : List Stmt → Session → List Action
  | [] => fun _ => []
  | s :: rest => fun session =>
    s.trace session ++
      s.exec.andThen (fun
        | .completed => traceAll rest
        | .halted => fun _ => []) session

end

/-- The actions of running a program. -/
def Program.trace (p : Program) : Session → List Action :=
  Stmt.traceAll p.body

namespace Effect

variable {α β : Type}

/-- Where the first effect gives a value, the next one goes on with it. -/
theorem bind_of_ok {a : Effect α} {f : α → Effect β} {s s' : Session} {x : α}
    (h : a s = .ok x s') : (a >>= f) s = f x s' := by
  simp only [bind, EStateM.bind, h]

/-- Where the first effect fails, so do both, and the next one is not begun. -/
theorem bind_of_error {a : Effect α} {f : α → Effect β} {s s' : Session} {e : Error}
    (h : a s = .error e s') : (a >>= f) s = .error e s' := by
  simp only [bind, EStateM.bind, h]

/-- The actions that follow a value are those of the next effect. -/
theorem andThen_of_ok {a : Effect α} {u : α → Session → List Action} {s s' : Session} {x : α}
    (h : a s = .ok x s') : a.andThen u s = u x s' := by
  rw [andThen, h]

theorem andThen_of_error {a : Effect α} {u : α → Session → List Action} {s s' : Session}
    {e : Error} (h : a s = .error e s') : a.andThen u s = [] := by
  rw [andThen, h]

theorem andThen_nil (a : Effect α) (s : Session) : a.andThen (fun _ _ => []) s = [] := by
  unfold andThen
  split <;> rfl

/-- The value of a variable is looked up in the store, which stays as it is. -/
theorem fetch_eq (name : Token) : fetch name = fun s =>
    match s.store.get? name.lexeme with
    | some x => .ok x s
    | none => .error (.undefinedName name) s := by
  funext s
  show (match s.store.get? name.lexeme with
    | some x => (pure x : Effect Float)
    | none => throw (Error.undefinedName name)) s = _
  cases s.store.get? name.lexeme <;> rfl

/-- The prompt is announced if there is one, and otherwise nothing happens. -/
theorem showPrompt_eq : showPrompt = fun s =>
    match s.prompt with
    | some text => announce text s
    | none => .ok () s := by
  funext s
  show (match s.prompt with
    | some text => announce text
    | none => pure ()) s = _
  cases s.prompt <;> rfl

/-! ## Effects made of actions -/

/-- The effect is put together from these actions, and otherwise only looks at variables and
    fails. -/
inductive Does : {α : Type} → Effect α → (Session → List Action) → Prop where
  /-- A value or an error of the program, without an action. -/
  | ofExcept {α : Type} (r : Except Error α) (inner : ∀ failure, r ≠ .error (.io failure)) :
    Does (MonadExcept.ofExcept r) fun _ => []
  /-- The value of a variable. -/
  | fetch (name : Token) : Does (fetch name) fun _ => []
  | assign (name : Token) (x : Float) : Does (assign name x) fun _ => [.assign name x]
  | showPrompt (keyword : Token) :
    Does showPrompt fun s => (s.prompt.map (.prompt keyword)).toList
  | takeLine (keyword : Token) : Does takeLine fun _ => [.read keyword]
  | write (keyword : Token) (x : Float) :
    Does (write (Numeral.write x ++ "\n")) fun _ => [.print keyword x]
  /-- The actions of one effect and then those of the next, if the first gives a value. -/
  | bind {α β : Type} {a : Effect α} {f : α → Effect β} {t : Session → List Action}
    {u : α → Session → List Action} (first : Does a t) (next : ∀ x, Does (f x) (u x)) :
    Does (a >>= f) fun s => t s ++ a.andThen u s

namespace Does

/-- A value that is there already takes no action. -/
theorem pure (x : α) : Does (Pure.pure x) fun _ => [] := ofExcept (.ok x) nofun

/-- What follows without an action leaves the trace as it is. -/
theorem silently {a : Effect α} {f : α → Effect β} {t : Session → List Action} (first : Does a t)
    (next : ∀ x, Does (f x) fun _ => []) : Does (a >>= f) t := by
  have both := first.bind next
  simp only [andThen_nil, List.append_nil] at both
  exact both

/-- To ask for a needed value takes no action. -/
theorem require (e : Expr) (x : Option Float) : Does (Effect.require e x) fun _ => [] := by
  cases x with
  | none => exact ofExcept (.error (.badValue e.token _)) nofun
  | some x => exact pure x

end Does

end Effect

open Effect

/-! ## Programs are made of actions -/

/-- What goes wrong with an operator between operands is never the outer world's fault. -/
theorem Token.applyBinary_ne_io (op : Token) (x y : Float) (failure : IoFailure) :
    op.applyBinary x y ≠ .error (.io failure) := by
  unfold Token.applyBinary
  split
  case h_4 => split <;> nofun
  all_goals nofun

/-- What goes wrong with an operator before an operand is never the outer world's fault. -/
theorem Token.applyUnary_ne_io (op : Token) (x : Float) (failure : IoFailure) :
    op.applyUnary x ≠ .error (.io failure) := by
  unfold Token.applyUnary
  split <;> nofun

/-- A line that spells no number is no failure of the outer world. -/
theorem Effect.numberOf_ne_io (keyword : Token) (line : Option String) (failure : IoFailure) :
    numberOf keyword line ≠ .error (.io failure) := by
  cases line with
  | none => nofun
  | some line =>
    unfold numberOf
    dsimp only
    split <;> nofun

/-- To need the value of an expression takes the actions of its evaluation. -/
theorem Expr.does_value {e : Expr} (h : Does e.eval e.trace) : Does e.value e.trace :=
  h.silently fun x => .require e x

/-- A value that is needed is the one that evaluating gives. -/
theorem Expr.bind_value {β : Type} (e : Expr) (f : Float → Effect β) :
    (do let x ← Effect.require e (← e.eval); f x) = (do let x ← e.value; f x) := by
  rw [Expr.value, bind_assoc]

/-- Evaluating an expression performs the actions of its trace. -/
theorem Expr.does_eval : ∀ e : Expr, Does e.eval e.trace
  | .assign name value => by
    rw [Expr.eval, value.bind_value]
    exact (does_value (does_eval value)).bind fun x =>
      (Does.assign name x).silently fun _ => .pure _
  | .binary left op right => by
    rw [Expr.eval, left.bind_value]
    refine (does_value (does_eval left)).bind fun x => ?_
    rw [right.bind_value]
    exact (does_value (does_eval right)).silently fun y =>
      (Does.ofExcept _ (op.applyBinary_ne_io x y)).silently fun _ => .pure _
  | .input keyword => by
    rw [Expr.eval, Effect.readNumber, bind_assoc]
    refine (Does.showPrompt keyword).bind fun _ => ?_
    rw [bind_assoc]
    exact (Does.takeLine keyword).silently fun line =>
      (Does.ofExcept _ (numberOf_ne_io keyword line)).silently fun _ => .pure _
  | .literal _ value => .pure _
  | .print keyword value => by
    rw [Expr.eval, value.bind_value]
    exact (does_value (does_eval value)).bind fun x =>
      (Does.write keyword x).silently fun _ => .pure _
  | .unary op operand => by
    rw [Expr.eval, operand.bind_value]
    exact (does_value (does_eval operand)).silently fun x =>
      (Does.ofExcept _ (op.applyUnary_ne_io x)).silently fun _ => .pure _
  | .var name => (Does.fetch name).silently fun _ => .pure _

theorem Expr.does_holds (e : Expr) : Does e.holds e.trace :=
  (does_value e.does_eval).silently fun _ => .pure _

mutual

/-- Executing a statement performs the actions of its trace. -/
theorem Stmt.does_exec : ∀ s : Stmt, Does s.exec s.trace
  | .block _ body => by
    rw [Stmt.exec, Stmt.trace]
    exact does_execAll body
  | .expression e => by
    rw [Stmt.exec, Stmt.trace]
    exact (e.does_eval.silently fun _ => .pure _).silently fun _ => .pure _
  | .halt _ => by
    rw [Stmt.exec, Stmt.trace]
    exact .pure _
  | .ifThen _ condition s => by
    rw [Stmt.exec, Stmt.trace]
    refine condition.does_holds.bind fun b => ?_
    cases b with
    | true => exact does_exec s
    | false => exact .pure _
  | .ifElse _ condition s t => by
    rw [Stmt.exec, Stmt.trace]
    refine condition.does_holds.bind fun b => ?_
    cases b with
    | true => exact does_exec s
    | false => exact does_exec t

theorem Stmt.does_execAll : ∀ body : List Stmt, Does (execAll body) (traceAll body)
  | [] => by
    rw [Stmt.execAll, Stmt.traceAll]
    exact .pure _
  | s :: rest => by
    rw [Stmt.execAll, Stmt.traceAll]
    refine (does_exec s).bind fun outcome => ?_
    cases outcome with
    | completed => exact does_execAll rest
    | halted => exact .pure _

end

/-! ## Performing actions -/

/-- The writer takes everything that is written, and every flush. -/
def Writer.NeverFails (w : Writer) : Prop :=
  w.room = none ∧ w.flushes = none

/-- The session after these bytes were written. -/
def Session.wrote (s : Session) (bytes : List UInt8) : Session :=
  { s with writer := { s.writer with written := s.writer.written ++ bytes } }

namespace Effect

variable {s : Session}

theorem write_of_neverFails (sound : s.writer.NeverFails) (text : String) :
    write text s = .ok () (s.wrote (Text.encode text)) := by
  obtain ⟨store, reader, ⟨written, room, flushes⟩, prompt⟩ := s
  obtain ⟨rfl, rfl⟩ : room = none ∧ flushes = none := sound
  rfl

/-- Where the writer does not fail, a text is written in full and the flush changes nothing. -/
theorem announce_of_neverFails (sound : s.writer.NeverFails) (text : String) :
    announce text s = .ok () (s.wrote (Text.encode text)) := by
  rw [announce, bind_of_ok (write_of_neverFails sound text)]
  obtain ⟨store, reader, ⟨written, room, flushes⟩, prompt⟩ := s
  obtain ⟨rfl, rfl⟩ : room = none ∧ flushes = none := sound
  rfl

end Effect

namespace Action

/-- Where the writer does not fail, an action succeeds and writes its output. -/
theorem exists_perform (action : Action) {s : Session} (sound : s.writer.NeverFails) :
    ∃ u, action.perform s = .ok () u ∧
      u.writer = { s.writer with written := s.writer.written ++ action.output } := by
  cases action with
  | assign name value => exact ⟨_, rfl, by rw [output, List.append_nil]⟩
  | read keyword => exact ⟨_, rfl, by rw [output, List.append_nil]⟩
  | print keyword value => exact ⟨_, write_of_neverFails sound _, rfl⟩
  | prompt keyword text => exact ⟨_, announce_of_neverFails sound text, rfl⟩

/-- Where the writer does not fail, actions succeed and write their outputs in order. -/
theorem exists_performAll (actions : List Action) {s : Session} (sound : s.writer.NeverFails) :
    ∃ u, performAll actions s = .ok () u ∧
      u.writer =
        { s.writer with written := s.writer.written ++ actions.flatMap Action.output } := by
  induction actions generalizing s with
  | nil => exact ⟨s, rfl, by rw [List.flatMap_nil, List.append_nil]⟩
  | cons action rest ih =>
    obtain ⟨u, first, written⟩ := action.exists_perform sound
    have sound' : u.writer.NeverFails := by rw [written]; exact sound
    obtain ⟨v, others, written'⟩ := ih sound'
    refine ⟨v, ?_, ?_⟩
    · rw [performAll]
      show (action.perform >>= fun _ => performAll rest) s = _
      rw [bind_of_ok first, others]
    · rw [written', written, List.flatMap_cons, List.append_assoc]

end Action

namespace Effect

variable {α β : Type}

/-! ## Traces are all that a run does -/

/-- The same value or error, with another session left behind. -/
def endIn (u : Session) : EStateM.Result Error Session α → EStateM.Result Error Session α
  | .ok x _ => .ok x u
  | .error e _ => .error e u

/-- The sessions differ in their writers only; in their readers too if no line is asked for. -/
def Agree (asks : Prop) (s s' : Session) : Prop :=
  s'.store = s.store ∧ s'.prompt = s.prompt ∧ (asks → s'.reader = s.reader)

theorem Agree.refl (asks : Prop) (s : Session) : Agree asks s s := ⟨rfl, rfl, fun _ => rfl⟩

/-- From a session that differs in its writer only, the effect does the actions that `t` lists, up
    to the first that fails; if none does, it comes to the same value or error. -/
def Replays (a : Effect α) (t : Session → List Action) : Prop :=
  ∀ (asks : Prop) (s s' : Session), s.writer.NeverFails → Agree asks s s' →
    (∀ keyword, .read keyword ∈ t s → asks) →
    (∃ u, Action.performAll (t s) s' = .ok () u ∧ a s' = endIn u (a s) ∧
      Agree asks (a.after s) u) ∨
    (∃ e u, Action.performAll (t s) s' = .error e u ∧ a s' = .error e u)

theorem after_of_endIn {a : Effect α} {s u : Session} (h : a s = endIn u (a s)) :
    a.after s = u := by
  unfold after
  rw [h]
  cases a s <;> rfl

/-- Where no action fails, the effect comes to the same value or error, and ends where the actions
    lead. -/
theorem Replays.of_performAll {a : Effect α} {t : Session → List Action} (h : Replays a t)
    {asks : Prop} {s s' u : Session} (sound : s.writer.NeverFails) (agree : Agree asks s s')
    (reads : ∀ keyword, .read keyword ∈ t s → asks)
    (performed : Action.performAll (t s) s' = .ok () u) :
    a s' = endIn u (a s) ∧ Agree asks (a.after s) u := by
  rcases h asks s s' sound agree reads with ⟨v, performed', ended⟩ | ⟨e, v, failed, _⟩
  · rw [performed] at performed'
    cases performed'
    exact ended
  · rw [performed] at failed
    cases failed

/-- Where an action fails, the effect fails with it. -/
theorem Replays.of_performAll_error {a : Effect α} {t : Session → List Action} (h : Replays a t)
    {asks : Prop} {s s' u : Session} {e : Error} (sound : s.writer.NeverFails)
    (agree : Agree asks s s') (reads : ∀ keyword, .read keyword ∈ t s → asks)
    (failed : Action.performAll (t s) s' = .error e u) : a s' = .error e u := by
  rcases h asks s s' sound agree reads with ⟨v, performed, _⟩ | ⟨e', v, failed', ended⟩
  · rw [failed] at performed
    cases performed
  · rw [failed] at failed'
    cases failed'
    exact ended

/-- An effect with a trace ends where the actions of the trace lead. -/
theorem Replays.performAll {a : Effect α} {t : Session → List Action} (h : Replays a t)
    {s : Session} (sound : s.writer.NeverFails) :
    Action.performAll (t s) s = .ok () (a.after s) := by
  obtain ⟨u, performed, _⟩ := Action.exists_performAll (t s) sound
  have ended := h.of_performAll sound (.refl True s) (fun _ _ => trivial) performed
  rw [after_of_endIn ended.1, performed]

/-- Writers that do not fail stay so. -/
theorem Replays.neverFails {a : Effect α} {t : Session → List Action} (h : Replays a t)
    {s : Session} (sound : s.writer.NeverFails) : (a.after s).writer.NeverFails := by
  obtain ⟨u, performed, written⟩ := Action.exists_performAll (t s) sound
  rw [h.performAll sound] at performed
  cases performed
  rw [written]
  exact sound

/-! ### Sequences -/

/-- Effects that replay their actions do so one after the other. -/
theorem Replays.bind {a : Effect α} {f : α → Effect β} {t : Session → List Action}
    {u : α → Session → List Action} (first : Replays a t) (next : ∀ x, Replays (f x) (u x)) :
    Replays (a >>= f) fun s => t s ++ a.andThen u s := by
  intro asks s s' sound agree reads
  have reads₁ : ∀ keyword, .read keyword ∈ t s → asks :=
    fun keyword mem => reads keyword (List.mem_append_left _ mem)
  have sound' := first.neverFails sound
  show (∃ v, Action.performAll (t s ++ a.andThen u s) s' = _ ∧ _) ∨
    ∃ e v, Action.performAll (t s ++ a.andThen u s) s' = _ ∧ _
  rw [Action.performAll_append]
  rcases first asks s s' sound agree reads₁ with
    ⟨v, performed, ended, agree'⟩ | ⟨e, v, failed, ended⟩
  · rw [bind_of_ok performed]
    cases run : a s with
    | ok x s₁ =>
      rw [after_of_ok run] at agree' sound'
      rw [run] at ended
      have later : a.andThen u s = u x s₁ := andThen_of_ok run
      have reads₂ : ∀ keyword, .read keyword ∈ u x s₁ → asks :=
        fun keyword mem => reads keyword (List.mem_append_right _ (later ▸ mem))
      rw [later, bind_of_ok ended, bind_of_ok run, after_bind_of_ok run]
      exact next x asks s₁ v sound' agree' reads₂
    | error e s₁ =>
      rw [run] at ended
      have later : a.andThen u s = [] := andThen_of_error run
      rw [after_of_error run] at agree'
      rw [later, bind_of_error ended, bind_of_error run, after_bind_of_error run]
      exact .inl ⟨v, rfl, rfl, agree'⟩
  · rw [bind_of_error failed, bind_of_error ended]
    exact .inr ⟨e, v, rfl, rfl⟩

/-! ### Single effects -/

/-- An effect that looks at variables only does nothing. -/
theorem replays_of_look {a : Effect α} (look : Store → Except Error α)
    (h : ∀ s, a s = endIn s ((MonadExcept.ofExcept (look s.store) : Effect α) s)) :
    Replays a fun _ => [] := by
  intro asks s s' _ agree _
  have unchanged : a.after s = s := by
    refine after_of_endIn ?_
    rw [h]
    cases look s.store <;> rfl
  refine .inl ⟨s', rfl, ?_, by rw [unchanged]; exact agree⟩
  rw [h, h, agree.1]
  cases look s.store <;> rfl

theorem replays_ofExcept (r : Except Error α) :
    Replays (MonadExcept.ofExcept r : Effect α) fun _ => [] :=
  replays_of_look (fun _ => r) fun _ => by cases r <;> rfl

theorem replays_fetch (name : Token) : Replays (fetch name) fun _ => [] := by
  refine replays_of_look (fun store => match store.get? name.lexeme with
    | some x => .ok x
    | none => .error (.undefinedName name)) fun s => ?_
  rw [fetch_eq]
  dsimp only
  cases s.store.get? name.lexeme <;> rfl

/-- One action is performed as it is. -/
theorem performAll_singleton (action : Action) : Action.performAll [action] = action.perform := by
  show (action.perform >>= fun _ => Pure.pure ()) = _
  rw [bind_pure_unit]

theorem replays_assign (name : Token) (x : Float) :
    Replays (assign name x) fun _ => [.assign name x] := by
  intro asks s s' _ agree _
  refine .inl ⟨{ s' with store := s'.store.set name.lexeme x }, rfl, rfl, ?_⟩
  exact ⟨congrArg (·.set name.lexeme x) agree.1, agree.2⟩

/-- Taking a line replays one action, whatever the line holds. -/
theorem replays_takeLine (keyword : Token) : Replays takeLine fun _ => [.read keyword] := by
  intro asks s s' _ agree reads
  have same : s'.reader = s.reader := agree.2.2 (reads keyword (List.mem_singleton_self _))
  refine .inl ⟨{ s' with reader := s'.reader.skipLine }, rfl, ?_, ?_⟩
  · show ofDevice s'.reader.lineText _ = endIn _ (ofDevice s.reader.lineText _)
    rw [same]
    cases s.reader.lineText <;> rfl
  · rw [after_takeLine]
    exact ⟨agree.1, agree.2.1, fun _ => congrArg Reader.skipLine same⟩

/-- An effect that only writes is the action of writing. -/
theorem replays_of_writes (action : Action) (writes : ∀ s, ∃ w, action.perform.after s =
    { s with writer := w }) : Replays action.perform fun _ => [action] := by
  intro asks s s' sound agree _
  obtain ⟨u, performed, _⟩ := action.exists_perform sound
  rw [performAll_singleton, performed]
  cases run : action.perform s' with
  | error e v => exact .inr ⟨e, v, rfl, rfl⟩
  | ok x v =>
    refine .inl ⟨v, rfl, rfl, ?_⟩
    obtain ⟨w, other⟩ := writes s
    obtain ⟨w', other'⟩ := writes s'
    rw [after_of_ok run] at other'
    rw [other, other']
    exact agree

/-- Writing changes nothing but the writer, whether or not it fails. -/
theorem exists_after_write (text : String) (s : Session) :
    ∃ w, (Effect.write text).after s = { s with writer := w } :=
  ⟨_, after_write text s⟩

/-- Announcing changes nothing but the writer, whether or not it fails. -/
theorem exists_after_announce (text : String) (s : Session) :
    ∃ w, (announce text).after s = { s with writer := w } := by
  obtain ⟨w, wrote⟩ := exists_after_write text s
  cases run : Effect.write text s with
  | ok _ s₁ =>
    rw [after_of_ok run] at wrote
    subst wrote
    exact ⟨_, (after_bind_of_ok run).trans (after_flush _)⟩
  | error e s₁ =>
    rw [after_of_error run] at wrote
    exact ⟨w, (after_bind_of_error run).trans wrote⟩

/-- Writing leaves the reader where it is. -/
theorem reader_after_write (text : String) (s : Session) :
    ((Effect.write text).after s).reader = s.reader := by
  obtain ⟨w, same⟩ := exists_after_write text s
  rw [same]

theorem reader_after_announce (text : String) (s : Session) :
    ((announce text).after s).reader = s.reader := by
  obtain ⟨w, same⟩ := exists_after_announce text s
  rw [same]

theorem replays_showPrompt (keyword : Token) :
    Replays showPrompt fun s => (s.prompt.map (.prompt keyword)).toList := by
  intro asks s s' sound agree reads
  unfold after
  rw [showPrompt_eq]
  dsimp only
  rw [agree.2.1]
  cases s.prompt with
  | none => exact .inl ⟨s', rfl, rfl, agree⟩
  | some text =>
    have written := replays_of_writes (.prompt keyword text) (exists_after_announce text)
    exact written asks s s' sound agree fun _ mem => nomatch List.mem_singleton.mp mem

/-- Every effect made of actions replays them. -/
theorem Does.replays {a : Effect α} {t : Session → List Action} (h : Does a t) : Replays a t := by
  induction h with
  | ofExcept r _ => exact replays_ofExcept r
  | fetch name => exact replays_fetch name
  | assign name x => exact replays_assign name x
  | showPrompt keyword => exact replays_showPrompt keyword
  | takeLine keyword => exact replays_takeLine keyword
  | write keyword x => exact replays_of_writes (.print keyword x) (exists_after_write _)
  | bind _ _ ih ih' => exact ih.bind ih'

/-- Writers that do not fail stay so when a value is come to. -/
theorem Does.neverFails_of_ok {a : Effect α} {t : Session → List Action} (h : Does a t)
    {s s' : Session} {x : α} (sound : s.writer.NeverFails) (run : a s = .ok x s') :
    s'.writer.NeverFails := by
  have still := h.replays.neverFails sound
  rw [after_of_ok run] at still
  exact still

/-! ## What runs leave alone -/

theorem after_fetch (name : Token) (s : Session) : (fetch name).after s = s := by
  rw [after, fetch_eq]
  dsimp only
  cases s.store.get? name.lexeme <;> rfl

/-- What holds after an effect, and after each that can follow, holds after both. -/
theorem after_bind {P : Session → Prop} {a : Effect α} {f : α → Effect β} {s : Session}
    (first : P (a.after s)) (next : ∀ x s', P s' → P ((f x).after s')) :
    P ((a >>= f).after s) := by
  cases run : a s with
  | ok x s' =>
    rw [after_of_ok run] at first
    rw [after_bind_of_ok run]
    exact next x s' first
  | error e s' =>
    rw [after_of_error run] at first
    rw [after_bind_of_error run]
    exact first

/-- What holds of a session whatever its variables and its reader are, and whatever is written and
    flushed, holds after an effect made of actions if it held before. -/
theorem Does.preserves {P : Session → Prop} (store : ∀ s store, P s → P { s with store })
    (reader : ∀ s reader, P s → P { s with reader })
    (put : ∀ s bytes, P s → P { s with writer := (s.writer.put bytes).2 })
    (flush : ∀ s, P s → P { s with writer := s.writer.flush.2 })
    {a : Effect α} {t : Session → List Action} (h : Does a t) {s : Session} (holds : P s) :
    P (a.after s) := by
  have written (text : String) {s : Session} (holds : P s) :
      P ((Effect.write text).after s) := by
    rw [after_write]
    exact put s _ holds
  have announced (text : String) {s : Session} (holds : P s) : P ((announce text).after s) := by
    refine after_bind (written text holds) fun _ s' holds' => ?_
    rw [after_flush]
    exact flush s' holds'
  induction h generalizing s with
  | ofExcept r _ => cases r <;> exact holds
  | fetch name =>
    rw [after_fetch]
    exact holds
  | assign name x => exact store s _ holds
  | showPrompt keyword =>
    rw [after, showPrompt_eq]
    dsimp only
    cases s.prompt with
    | none => exact holds
    | some text => exact announced text holds
  | takeLine keyword =>
    rw [after_takeLine]
    exact reader s _ holds
  | write keyword x => exact written _ holds
  | bind _ _ ih ih' => exact after_bind (ih holds) fun x _ holds' => ih' x holds'

/-- The prompt is not changed. -/
theorem Does.prompt_after {a : Effect α} {t : Session → List Action} (h : Does a t) (s : Session) :
    (a.after s).prompt = s.prompt :=
  h.preserves (P := fun u => u.prompt = s.prompt) (fun _ _ h => h) (fun _ _ h => h)
    (fun _ _ h => h) (fun _ h => h) rfl

/-- Where writing never fails and no line is read, the outer world does not fail. -/
theorem Does.ne_io {a : Effect α} {t : Session → List Action} (h : Does a t) {s s' : Session}
    {failure : IoFailure} (sound : s.writer.NeverFails)
    (quiet : ∀ keyword, .read keyword ∉ t s) : a s ≠ .error (.io failure) s' := by
  have performed (action : Action) {s : Session} (sound : s.writer.NeverFails) :
      action.perform s ≠ .error (.io failure) s' := by
    obtain ⟨u, succeeds, _⟩ := action.exists_perform sound
    rw [succeeds]
    nofun
  induction h generalizing s with
  | ofExcept r inner =>
    cases r with
    | ok x => nofun
    | error e =>
      intro failed
      cases failed
      exact inner failure rfl
  | fetch name =>
    rw [fetch_eq]
    dsimp only
    cases s.store.get? name.lexeme <;> nofun
  | assign name x => nofun
  | showPrompt keyword =>
    rw [showPrompt_eq]
    dsimp only
    cases s.prompt with
    | none => nofun
    | some text => exact performed (.prompt keyword text) sound
  | takeLine keyword => exact absurd (List.mem_singleton_self _) (quiet keyword)
  | write keyword x => exact performed (.print keyword x) sound
  | @bind α β a f t u first _ ih ih' =>
    cases run : a s with
    | ok x s₁ =>
      have sound' := first.neverFails_of_ok sound run
      have later : a.andThen u s = u x s₁ := andThen_of_ok run
      rw [bind_of_ok run]
      refine ih' x sound' fun keyword mem => quiet keyword ?_
      exact List.mem_append_right _ (later ▸ mem)
    | error e s₁ =>
      have inner := ih sound fun keyword mem => quiet keyword (List.mem_append_left _ mem)
      rw [run] at inner
      rw [bind_of_error run]
      intro failed
      cases failed
      exact inner rfl

end Effect

namespace Program

/-- Where flushing never fails, it will not. -/
theorem flushes_after_execAll (body : List Stmt) {s : Session} (flushes : s.writer.flushes = none) :
    ((Stmt.execAll body).after s).writer.flushes = none := by
  refine (Stmt.does_execAll body).preserves (P := fun s => s.writer.flushes = none)
    (fun _ _ h => h) (fun _ _ h => h) (fun s bytes h => ?_) (fun s h => ?_) flushes
  · show (s.writer.put bytes).2.flushes = none
    unfold Writer.put
    split
    · exact h
    · split <;> exact h
  · show s.writer.flush.2.flushes = none
    unfold Writer.flush
    rw [h]
    exact h

/-- Where flushing never fails, a program is run by executing its statements. -/
theorem run_eq_execAll (p : Program) {s : Session} (flushes : s.writer.flushes = none) :
    p.run s = Stmt.execAll p.body s := by
  have still := flushes_after_execAll p.body flushes
  have flushed (u : Session) (h : u.writer.flushes = none) : flush u = .ok () u := by
    unfold flush Writer.flush
    rw [h]
    rfl
  show (Stmt.execAll p.body).thenAlways flush s = _
  unfold thenAlways
  cases ended : Stmt.execAll p.body s with
  | ok outcome u =>
    rw [after_of_ok ended] at still
    exact bind_of_ok (flushed u still)
  | error e u =>
    rw [after_of_error ended] at still
    exact bind_of_ok (flushed u still)

end Program

end NumScript
