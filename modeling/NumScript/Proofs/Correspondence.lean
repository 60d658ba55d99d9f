/-
  Two runs side by side.

  Much about a program does not matter for what it does: on which lines it stands, how its variables
  are called, and what the variables hold that it does not name.  Each of these is seen by
  comparing two runs.  A CORRESPONDENCE says what stands in the second run for a token, a session
  and an error of the first, so that a program cannot tell the two apart
  (`Correspondence.IsFaithful`).  Then a run from a corresponding session comes to the corresponding
  end (`Correspondence.run`).

  This is shown of one effect and its counterpart (`Correspondence.Effects`).  It goes through `>>=`
  because the value that decides what is done next is the same in both runs.
-/
import NumScript.Proofs.Nodes
import NumScript.Proofs.Relabelling

namespace NumScript

/-! ## Devices -/

namespace Effect

variable {α : Type}

/-- The effect does something to the reader and the writer and nothing else, and nothing else
    matters for it. -/
def IsOfDevice (a : Effect α) : Prop :=
  ∃ (result : Reader → Writer → Except IoFailure α) (reader : Reader → Reader)
    (writer : Writer → Writer), ∀ s, a s = ofDevice (result s.reader s.writer)
      { s with reader := reader s.reader, writer := writer s.writer }

theorem isOfDevice_write (text : String) : (write text).IsOfDevice :=
  ⟨fun _ w => (w.put (Text.encode text)).1, id, fun w => (w.put (Text.encode text)).2,
    fun _ => rfl⟩

theorem isOfDevice_flush : flush.IsOfDevice :=
  ⟨fun _ w => w.flush.1, id, fun w => w.flush.2, fun _ => rfl⟩

theorem isOfDevice_takeLine : takeLine.IsOfDevice :=
  ⟨fun r _ => r.lineText, Reader.skipLine, id, fun _ => rfl⟩

end Effect

/-! ## Correspondences -/

section Faithful

variable (token : Token → Token) (session : Session → Session → Prop)
  (error : Error → Error → Prop) (names : String → Prop)

/-- A program cannot tell the two runs apart. -/
structure Correspondence.IsFaithful : Prop where
  kind_token (t : Token) : (token t).kind = t.kind
  reader {s s' : Session} (same : session s s') : s'.reader = s.reader
  writer {s s' : Session} (same : session s s') : s'.writer = s.writer
  prompt {s s' : Session} (same : session s s') : s'.prompt = s.prompt
  get? {s s' : Session} (same : session s s') (t : Token) (named : names t.lexeme) :
    s'.store.get? (token t).lexeme = s.store.get? t.lexeme
  set {s s' : Session} (same : session s s') (t : Token) (x : Float) :
    session { s with store := s.store.set t.lexeme x }
      { s' with store := s'.store.set (token t).lexeme x }
  device {s s' : Session} (same : session s s') (reader : Reader) (writer : Writer) :
    session { s with reader, writer } { s' with reader, writer }
  error_io (failure : IoFailure) : error (.io failure) (.io failure)
  error_undefinedName (t : Token) : error (.undefinedName t) (.undefinedName (token t))
  error_badValue (t : Token) (text : String) : error (.badValue t text) (.badValue (token t) text)
  error_arithmetic (t : Token) (text : String) :
    error (.arithmetic t text) (.arithmetic (token t) text)
  error_notOperator (t : Token) : error (.notOperator t) (.notOperator (token t))

end Faithful

/-- What stands for what in another run. -/
structure Correspondence where
  /-- The token that stands for a token. -/
  token : Token → Token
  /-- Whether the second session stands for the first. -/
  session : Session → Session → Prop
  /-- Whether the second error stands for the first. -/
  error : Error → Error → Prop
  /-- The names of the variables that have the same values. -/
  names : String → Prop
  faithful : Correspondence.IsFaithful token session error names

namespace Correspondence

open Effect

variable (c : Correspondence) {α β : Type}

/-- The second result stands for the first: the same value, or the corresponding error. -/
inductive Results : Except Error α → Except Error α → Prop where
  | ok (x : α) : Results (.ok x) (.ok x)
  | error {e e' : Error} (h : c.error e e') : Results (.error e) (.error e')

/-- The second end stands for the first. -/
inductive Ends : EStateM.Result Error Session α → EStateM.Result Error Session α → Prop where
  | ok {s s' : Session} (x : α) (h : c.session s s') : Ends (.ok x s) (.ok x s')
  | error {e e' : Error} {s s' : Session} (h : c.error e e') (h' : c.session s s') :
    Ends (.error e s) (.error e' s')

/-- The second effect stands for the first: from corresponding sessions they come to corresponding
    ends. -/
def Effects (a b : Effect α) : Prop :=
  ∀ s s', c.session s s' → c.Ends (a s) (b s')

variable {c}

/-- What corresponds does so one after the other, if each value is followed by what corresponds. -/
theorem Effects.bind {a b : Effect α} {f g : α → Effect β} (first : c.Effects a b)
    (next : ∀ x, c.Effects (f x) (g x)) : c.Effects (a >>= f) (b >>= g) := by
  intro s s' same
  have ended := first s s' same
  generalize run : a s = one at ended
  generalize run' : b s' = other at ended
  cases ended with
  | ok x same' =>
    rw [bind_of_ok run, bind_of_ok run']
    exact next x _ _ same'
  | error h same' =>
    rw [bind_of_error run, bind_of_error run']
    exact .error h same'

/-! ### Single effects -/

theorem pure (x : α) : c.Effects (Pure.pure x) (Pure.pure x) := fun _ _ same => .ok x same

/-- Failing with corresponding errors corresponds. -/
theorem throw {e e' : Error} (h : c.error e e') :
    c.Effects (MonadExcept.throw e : Effect α) (MonadExcept.throw e') :=
  fun _ _ same => .error h same

/-- Results that correspond still do as effects. -/
theorem ofExcept {x y : Except Error α} (h : c.Results x y) :
    c.Effects (MonadExcept.ofExcept x) (MonadExcept.ofExcept y) := by
  cases h with
  | ok x => exact pure x
  | error h => exact throw h

/-- Readers and writers are the same in both runs. -/
theorem ofDevice {a : Effect α} (h : a.IsOfDevice) : c.Effects a a := by
  obtain ⟨result, reader, writer, h⟩ := h
  intro s s' same
  rw [h, h, c.faithful.reader same, c.faithful.writer same]
  cases result s.reader s.writer with
  | ok x => exact .ok x (c.faithful.device same _ _)
  | error failure => exact .error (c.faithful.error_io failure) (c.faithful.device same _ _)

theorem announce (text : String) : c.Effects (Effect.announce text) (Effect.announce text) :=
  (ofDevice (isOfDevice_write text)).bind fun _ => ofDevice isOfDevice_flush

/-- Sessions that correspond show the same prompt. -/
theorem showPrompt : c.Effects Effect.showPrompt Effect.showPrompt := by
  intro s s' same
  rw [showPrompt_eq]
  dsimp only
  rw [c.faithful.prompt same]
  cases s.prompt with
  | none => exact .ok () same
  | some text => exact announce text s s' same

/-- A variable with one of the names has the same value in sessions that correspond. -/
theorem fetch {name : Token} (named : c.names name.lexeme) :
    c.Effects (Effect.fetch name) (Effect.fetch (c.token name)) := by
  intro s s' same
  rw [fetch_eq, fetch_eq]
  dsimp only
  rw [c.faithful.get? same name named]
  cases s.store.get? name.lexeme with
  | none => exact .error (c.faithful.error_undefinedName name) same
  | some x => exact .ok x same

/-- Assignments to corresponding tokens keep sessions in correspondence. -/
theorem assign (name : Token) (x : Float) :
    c.Effects (Effect.assign name x) (Effect.assign (c.token name) x) :=
  fun _ _ same => .ok () (c.faithful.set same name x)

/-- What has no value fails with corresponding errors. -/
theorem require (e : Expr) (x : Option Float) :
    c.Effects (Effect.require e x) (Effect.require (e.map c.token) x) := by
  cases x with
  | none =>
    refine throw ?_
    rw [Expr.token_map]
    exact c.faithful.error_badValue e.token _
  | some x => exact pure x

/-- A line spells the same number or corresponding errors, whichever `input` asks for it. -/
theorem numberOf (keyword : Token) (line : Option String) :
    c.Results (Effect.numberOf keyword line) (Effect.numberOf (c.token keyword) line) := by
  cases line with
  | none => exact .error (c.faithful.error_badValue keyword _)
  | some line =>
    unfold Effect.numberOf
    dsimp only
    cases Numeral.read? (Text.trim line) with
    | none => exact .error (c.faithful.error_badValue keyword _)
    | some x => exact .ok x

/-- Sessions that correspond read the same numbers. -/
theorem readNumber (keyword : Token) :
    c.Effects (Effect.readNumber keyword) (Effect.readNumber (c.token keyword)) :=
  showPrompt.bind fun _ => (ofDevice isOfDevice_takeLine).bind fun line =>
    ofExcept (numberOf keyword line)

/-- Operators between operands are applied alike, because they keep their kind. -/
theorem applyBinary (op : Token) (x y : Float) :
    c.Results (op.applyBinary x y) ((c.token op).applyBinary x y) := by
  unfold Token.applyBinary
  rw [c.faithful.kind_token]
  split
  case h_4 =>
    split
    · exact .error (c.faithful.error_arithmetic op _)
    · exact .ok _
  case h_6 => exact .error (c.faithful.error_notOperator op)
  all_goals exact .ok _

/-- Operators before an operand are applied alike, because they keep their kind. -/
theorem applyUnary (op : Token) (x : Float) :
    c.Results (op.applyUnary x) ((c.token op).applyUnary x) := by
  unfold Token.applyUnary
  rw [c.faithful.kind_token]
  split
  · exact .ok _
  · exact .error (c.faithful.error_notOperator op)

/-! ### Programs -/

theorem value {e : Expr} (h : c.Effects e.eval (e.map c.token).eval) :
    c.Effects e.value (e.map c.token).value :=
  h.bind fun x => require e x

/-- Expressions are evaluated in corresponding ways if all their variables are. -/
theorem eval : ∀ {e : Expr}, Expr.AllNamed c.names e.nodes → c.Effects e.eval (e.map c.token).eval
  | .assign name expr, named => by
    obtain ⟨_, inner⟩ := Expr.allNamed_cons.mp named
    rw [Expr.map, Expr.eval, Expr.eval, Expr.bind_value, Expr.bind_value]
    exact (value (eval inner)).bind fun x => (assign name x).bind fun _ => pure _
  | .binary left op right, named => by
    obtain ⟨_, inner⟩ := Expr.allNamed_cons.mp named
    obtain ⟨first, second⟩ := Expr.allNamed_append.mp inner
    rw [Expr.map, Expr.eval, Expr.eval, Expr.bind_value, Expr.bind_value]
    refine (value (eval first)).bind fun x => ?_
    rw [Expr.bind_value, Expr.bind_value]
    exact (value (eval second)).bind fun y =>
      (ofExcept (applyBinary op x y)).bind fun _ => pure _
  | .input keyword, _ => (readNumber keyword).bind fun _ => pure _
  | .literal _ x, _ => pure (some x)
  | .print _ expr, named => by
    obtain ⟨_, inner⟩ := Expr.allNamed_cons.mp named
    rw [Expr.map, Expr.eval, Expr.eval, Expr.bind_value, Expr.bind_value]
    exact (value (eval inner)).bind fun x =>
      (ofDevice (isOfDevice_write _)).bind fun _ => pure _
  | .unary op operand, named => by
    obtain ⟨_, inner⟩ := Expr.allNamed_cons.mp named
    rw [Expr.map, Expr.eval, Expr.eval, Expr.bind_value, Expr.bind_value]
    exact (value (eval inner)).bind fun x => (ofExcept (applyUnary op x)).bind fun _ => pure _
  | .var name, named => by
    obtain ⟨here, _⟩ := Expr.allNamed_cons.mp named
    exact (fetch (here name rfl)).bind fun _ => pure _

/-- Conditions that name only these variables hold alike in sessions that correspond. -/
theorem holds {e : Expr} (named : Expr.AllNamed c.names e.nodes) :
    c.Effects e.holds (e.map c.token).holds :=
  (value (eval named)).bind fun _ => pure _

mutual

/-- Statements are executed in corresponding ways if all their variables correspond. -/
theorem exec : ∀ {stmt : Stmt}, Expr.AllNamed c.names stmt.nodes →
    c.Effects stmt.exec (stmt.map c.token).exec
  | .block _ body, named => by
    rw [Stmt.nodes] at named
    rw [Stmt.map, Stmt.exec, Stmt.exec]
    exact execAll named
  | .expression e, named => by
    rw [Stmt.nodes] at named
    rw [Stmt.map, Stmt.exec, Stmt.exec]
    exact (Effects.bind (eval named) fun _ => pure _).bind fun _ => pure _
  | .halt _, _ => by
    rw [Stmt.map, Stmt.exec, Stmt.exec]
    exact pure _
  | .ifThen _ condition thenBranch, named => by
    rw [Stmt.nodes] at named
    obtain ⟨first, branch⟩ := Expr.allNamed_append.mp named
    rw [Stmt.map, Stmt.exec, Stmt.exec]
    refine (holds first).bind fun b => ?_
    cases b with
    | true => exact exec branch
    | false => exact pure _
  | .ifElse _ condition thenBranch elseBranch, named => by
    rw [Stmt.nodes] at named
    obtain ⟨first, branches⟩ := Expr.allNamed_append.mp named
    obtain ⟨branch, branch'⟩ := Expr.allNamed_append.mp branches
    rw [Stmt.map, Stmt.exec, Stmt.exec]
    refine (holds first).bind fun b => ?_
    cases b with
    | true => exact exec branch
    | false => exact exec branch'

/-- Statements that name only these variables are executed alike in sessions that correspond. -/
theorem execAll : ∀ {body : List Stmt}, Expr.AllNamed c.names (Stmt.nodesAll body) →
    c.Effects (Stmt.execAll body) (Stmt.execAll (Stmt.mapAll c.token body))
  | [], _ => by
    rw [Stmt.mapAll, Stmt.execAll]
    exact pure _
  | stmt :: rest, named => by
    rw [Stmt.nodesAll] at named
    obtain ⟨first, others⟩ := Expr.allNamed_append.mp named
    rw [Stmt.mapAll, Stmt.execAll, Stmt.execAll]
    refine (exec first).bind fun outcome => ?_
    cases outcome with
    | completed => exact execAll others
    | halted => exact pure _

end

/-- What is done in any case corresponds too. -/
theorem Effects.thenAlways {a b : Effect α} {last : Effect Unit} (first : c.Effects a b)
    (second : c.Effects last last) : c.Effects (a.thenAlways last) (b.thenAlways last) := by
  intro s s' same
  have ended := first s s' same
  unfold Effect.thenAlways
  generalize a s = one at ended
  generalize b s' = other at ended
  cases ended with
  | ok x same' => exact second.bind (fun _ => pure x) _ _ same'
  | error h same' => exact second.bind (fun _ => throw h) _ _ same'

/-- Programs run in corresponding ways if all their variables correspond. -/
theorem run {p : Program} (named : Expr.AllNamed c.names p.nodes) :
    c.Effects p.run (p.map c.token).run :=
  (execAll named).thenAlways (ofDevice isOfDevice_flush)

end Correspondence

end NumScript
