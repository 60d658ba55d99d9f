/-
  Who takes which line off the reader.

  A line is taken by a request for one, by a session that reads its programs line by line, or by an
  `input` of a program.  A TAKE says which of them it was and where the reader stood then; so the
  line is the next one of this reader, whatever becomes of it afterwards.

  The actions of a program, performed one after the other, lead where its run ends, on any writer
  and however the run ends (`Effect.Does.after_eq`).  So the takes of a program are those of its
  trace (`Action.takes`), and each of them begins where the one before it ended
  (`Reader.Gives`, `Action.gives_takes`): the lines that are taken, and behind them the bytes that
  are left, are the bytes that there were (`Reader.Gives.bytes`).
-/
import NumScript.Proofs.Actions

namespace NumScript

/-- Who takes a line off the reader of a session. -/
inductive Taker where
  /-- A request for a line. -/
  | request
  /-- A session that reads its programs line by line. -/
  | programLine
  /-- An `input`. -/
  | input (keyword : Token)

/-- A line being taken off the reader. -/
structure Take where
  /-- Who takes it. -/
  taker : Taker
  /-- The reader before that. -/
  reader : Reader

/-- The line that is taken, with its line end if it has one. -/
def Take.line (take : Take) : List UInt8 :=
  take.reader.nextLine

/-! ## Readers -/

/-- The bytes are one line, and these are the bytes behind it. -/
structure IsWholeLine (line behind : List UInt8) : Prop where
  /-- No line ends before its last byte. -/
  inner : lineEnd ∉ line.dropLast
  /-- A line without line end is the last one. -/
  ends : line.getLast? = some lineEnd ∨ behind = []

namespace Reader

/-- The next line is a whole one. -/
theorem isWholeLine_nextLine (r : Reader) : IsWholeLine r.nextLine r.skipLine.bytes := by
  have joined := r.nextLine_append_bytes_skipLine
  by_cases ends : lineEnd ∈ r.bytes
  · obtain ⟨before, after, split, inner⟩ := List.eq_append_cons_of_mem ends
    have line : r.nextLine = before ++ [lineEnd] := by
      obtain ⟨bytes, fault⟩ := r
      cases split
      exact nextLine_append inner after fault
    rw [line]
    refine ⟨?_, .inl List.getLast?_concat⟩
    rw [List.dropLast_concat]
    exact inner
  · have line := nextLine_of_not_mem ends
    rw [line] at joined ⊢
    refine ⟨?_, .inr (List.append_right_eq_self.mp joined)⟩
    intro mem
    exact ends ((List.dropLast_sublist _).subset mem)

/-- The lines are taken one after the other, the first of them from `r`, and `r'` is left. -/
def Gives : Reader → List Take → Reader → Prop
  | r, [], r' => r' = r
  | r, take :: rest, r' => take.reader = r ∧ r.skipLine.Gives rest r'

/-- What is taken in two goes is taken off the reader that the first one leaves. -/
theorem gives_append {r r' : Reader} {takes takes' : List Take} :
    r.Gives (takes ++ takes') r' ↔ ∃ m, r.Gives takes m ∧ m.Gives takes' r' := by
  induction takes generalizing r with
  | nil =>
    constructor
    · intro h
      exact ⟨r, rfl, h⟩
    · rintro ⟨_, rfl, h⟩
      exact h
  | cons take rest ih =>
    constructor
    · rintro ⟨here, h⟩
      obtain ⟨m, first, second⟩ := ih.mp h
      exact ⟨m, ⟨here, first⟩, second⟩
    · rintro ⟨m, ⟨here, first⟩, second⟩
      exact ⟨here, ih.mpr ⟨m, first, second⟩⟩

/-- Nothing is lost and nothing is read twice. -/
theorem Gives.bytes {r r' : Reader} {takes : List Take} (h : r.Gives takes r') :
    takes.flatMap Take.line ++ r'.bytes = r.bytes := by
  induction takes generalizing r with
  | nil =>
    cases h
    rfl
  | cons take rest ih =>
    obtain ⟨rfl, others⟩ := h
    rw [List.flatMap_cons, List.append_assoc, ih others]
    exact take.reader.nextLine_append_bytes_skipLine

end Reader

/-! ## Actions -/

namespace Action

/-- The line that an action takes, if it takes one. -/
def take? (r : Reader) : Action → Option Take
  | read keyword => some ⟨.input keyword, r⟩
  | _ => none

/-- The session after some actions, performed one after the other. -/
def afterAll (actions : List Action) (s : Session) : Session :=
  actions.foldl (fun s action => action.perform.after s) s

/-- The lines that some actions take, performed one after the other. -/
def takes : List Action → Session → List Take
  | [], _ => []
  | action :: rest, s => (action.take? s.reader).toList ++ takes rest (action.perform.after s)

theorem afterAll_append (actions actions' : List Action) (s : Session) :
    afterAll (actions ++ actions') s = afterAll actions' (afterAll actions s) :=
  List.foldl_append

/-- The second actions take their lines off the reader that the first ones leave. -/
theorem takes_append (actions actions' : List Action) (s : Session) :
    takes (actions ++ actions') s = takes actions s ++ takes actions' (afterAll actions s) := by
  induction actions generalizing s with
  | nil => rfl
  | cons action rest ih =>
    rw [List.cons_append, takes, takes, ih, List.append_assoc]
    rfl

/-- An action takes a line off the reader, or leaves the reader where it is. -/
theorem gives_take? (action : Action) (s : Session) :
    s.reader.Gives (action.take? s.reader).toList (action.perform.after s).reader := by
  cases action with
  | assign name value => rfl
  | read keyword => exact ⟨rfl, rfl⟩
  | prompt keyword text => exact Effect.reader_after_announce text s
  | print keyword value => exact Effect.reader_after_write _ s

/-- Actions take line after line, and the reader is where the last of them ended. -/
theorem gives_takes (actions : List Action) (s : Session) :
    s.reader.Gives (takes actions s) (afterAll actions s).reader := by
  induction actions generalizing s with
  | nil => rfl
  | cons action rest ih =>
    exact Reader.gives_append.mpr ⟨_, action.gives_take? s, ih _⟩

end Action

namespace Effect

variable {α β : Type} {a : Effect α} {f : α → Effect β} {t : Session → List Action}
  {u : α → Session → List Action}

/-- An effect leads where its actions lead. -/
theorem Does.after_eq (h : Does a t) (s : Session) : a.after s = Action.afterAll (t s) s := by
  induction h generalizing s with
  | ofExcept r _ => cases r <;> rfl
  | fetch name => exact after_fetch name s
  | assign name x => rfl
  | showPrompt keyword =>
    rw [after, showPrompt_eq]
    dsimp only
    cases s.prompt <;> rfl
  | takeLine keyword => exact after_takeLine s
  | write keyword x => rfl
  | @bind _ _ a f t u _ _ ih ih' =>
    rw [Action.afterAll_append, ← ih]
    cases run : a s with
    | ok x s' => rw [after_bind_of_ok run, andThen_of_ok run, after_of_ok run, ih']
    | error e s' => rw [after_bind_of_error run, andThen_of_error run, after_of_error run]; rfl

/-- Flushing at the end changes nothing but the writer. -/
theorem after_thenAlways_flush {α : Type} (a : Effect α) (s : Session) :
    (a.thenAlways flush).after s =
      { a.after s with writer := (a.after s).writer.flush.2 } := by
  have flushed {β : Type} (last : Effect β) (same : ∀ u, last.after u = u) (u : Session) :
      (do flush; last : Effect β).after u = { u with writer := u.writer.flush.2 } := by
    refine after_bind (P := (· = { u with writer := u.writer.flush.2 })) (after_flush u) ?_
    intro _ v h
    rw [same]
    exact h
  unfold after thenAlways
  cases a s with
  | ok x u => exact flushed (pure x) (fun _ => rfl) u
  | error e u => exact flushed (throw e) (fun _ => rfl) u

/-- What is taken by an effect and then by the next, if the first gives a value. -/
theorem Does.mem_takes_bind (h : Does a t) {s : Session} {take : Take} :
    take ∈ Action.takes (t s ++ a.andThen u s) s ↔
      take ∈ Action.takes (t s) s ∨ ∃ x s', a s = .ok x s' ∧ take ∈ Action.takes (u x s') s' := by
  rw [Action.takes_append, List.mem_append, ← h.after_eq]
  cases run : a s with
  | ok x s' =>
    rw [andThen_of_ok run, after_of_ok run]
    constructor
    · rintro (first | later)
      · exact .inl first
      · exact .inr ⟨x, s', rfl, later⟩
    · rintro (first | ⟨_, _, ⟨⟩, later⟩)
      · exact .inl first
      · exact .inr later
  | error e s' =>
    rw [andThen_of_error run]
    constructor
    · rintro (first | no)
      · exact .inl first
      · cases no
    · rintro (first | ⟨_, _, no, _⟩)
      · exact .inl first
      · cases no

end Effect

/-! ## Programs -/

namespace Program

/-- The lines that running a program takes. -/
def takes (p : Program) (s : Session) : List Take :=
  Action.takes (p.trace s) s

/-- A program takes line after line, and the reader is where the last of them ended. -/
theorem gives_takes (p : Program) (s : Session) :
    s.reader.Gives (p.takes s) (p.run.after s).reader := by
  rw [run, Effect.after_thenAlways_flush, (Stmt.does_execAll p.body).after_eq]
  exact Action.gives_takes _ s

end Program

end NumScript
