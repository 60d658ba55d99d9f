/-
  Tokens with other labels.

  A token is read by its kind alone; its lexeme and its line are only passed on, into the tree or
  into an error.  So tokens that are RELABELLED, with their kinds kept, are read as before, and
  what comes of it is the same tree or the same error with the tokens relabelled
  (`Relabelling.readFrom_map`, `Relabelling.ofTokens_map`).

  This holds because each single step of reading commutes with the relabelling
  (`Relabelling.step_map`): the draft after a relabelled token is the relabelled draft.  The laws
  before it say the same of the parts of a step, in the order in which `Draft` defines them.

  Moving a text to other lines is such a relabelling (`Relabelling.lines`).
-/
import NumScript.Cursor

namespace NumScript

/-! ## Trees -/

/-- The expression with every token replaced. -/
def Expr.map (f : Token → Token) : Expr → Expr
  | .assign name value => .assign (f name) (value.map f)
  | .binary left op right => .binary (left.map f) (f op) (right.map f)
  | .input keyword => .input (f keyword)
  | .literal token value => .literal (f token) value
  | .print keyword value => .print (f keyword) (value.map f)
  | .unary op operand => .unary (f op) (operand.map f)
  | .var name => .var (f name)

mutual

/-- The statement with every token replaced. -/
def Stmt.map (f : Token → Token) : Stmt → Stmt
  | .block brace body => .block (f brace) (mapAll f body)
  | .expression e => .expression (e.map f)
  | .halt keyword => .halt (f keyword)
  | .ifThen keyword condition thenBranch =>
    .ifThen (f keyword) (condition.map f) (thenBranch.map f)
  | .ifElse keyword condition thenBranch elseBranch =>
    .ifElse (f keyword) (condition.map f) (thenBranch.map f) (elseBranch.map f)

/-- The same for every statement of a list. -/
def Stmt.mapAll (f : Token → Token) : List Stmt → List Stmt
  | [] => []
  | s :: rest => s.map f :: mapAll f rest

end

/-- The program with every token replaced. -/
def Program.map (f : Token → Token) (p : Program) : Program where
  body := Stmt.mapAll f p.body

theorem Stmt.mapAll_eq_map (f : Token → Token) (body : List Stmt) :
    mapAll f body = body.map (Stmt.map f) := by
  induction body with
  | nil => rfl
  | cons s rest ih => rw [mapAll, ih, List.map_cons]

/-- The token on which errors are placed is replaced with the others. -/
theorem Expr.token_map (f : Token → Token) (e : Expr) : (e.map f).token = f e.token := by
  cases e <;> rfl

section Composition

variable (f g : Token → Token)

/-- Replacing all tokens twice replaces them once. -/
theorem Expr.map_map : ∀ e : Expr, (e.map f).map g = e.map (g ∘ f)
  | .assign _ value => by simp only [map, map_map value, Function.comp]
  | .binary left _ right => by simp only [map, map_map left, map_map right, Function.comp]
  | .print _ value => by simp only [map, map_map value, Function.comp]
  | .unary _ operand => by simp only [map, map_map operand, Function.comp]
  | .input _ | .literal .. | .var _ => rfl

mutual

theorem Stmt.map_map : ∀ s : Stmt, (s.map f).map g = s.map (g ∘ f)
  | .block _ body => by simp only [map, mapAll_mapAll body, Function.comp]
  | .expression e => by simp only [map, e.map_map]
  | .halt _ => rfl
  | .ifThen _ condition s => by simp only [map, condition.map_map, map_map s, Function.comp]
  | .ifElse _ condition s t => by
    simp only [map, condition.map_map, map_map s, map_map t, Function.comp]

/-- The same for every statement of a list. -/
theorem Stmt.mapAll_mapAll : ∀ body : List Stmt, mapAll g (mapAll f body) = mapAll (g ∘ f) body
  | [] => rfl
  | s :: rest => by simp only [mapAll, map_map s, mapAll_mapAll rest]

end

end Composition

/-- Nothing is replaced where every token is replaced by itself. -/
theorem Expr.map_id : ∀ e : Expr, e.map id = e
  | .assign _ value => by simp only [map, map_id value, id]
  | .binary left _ right => by simp only [map, map_id left, map_id right, id]
  | .print _ value => by simp only [map, map_id value, id]
  | .unary _ operand => by simp only [map, map_id operand, id]
  | .input _ | .literal .. | .var _ => rfl

mutual

theorem Stmt.map_id : ∀ s : Stmt, s.map id = s
  | .block _ body => by simp only [map, mapAll_id body, id]
  | .expression e => by simp only [map, e.map_id]
  | .halt _ => rfl
  | .ifThen _ condition s => by simp only [map, condition.map_id, map_id s, id]
  | .ifElse _ condition s t => by simp only [map, condition.map_id, map_id s, map_id t, id]

theorem Stmt.mapAll_id : ∀ body : List Stmt, mapAll id body = body
  | [] => rfl
  | s :: rest => by simp only [mapAll, map_id s, mapAll_id rest]

end

theorem Program.map_id (p : Program) : p.map id = p :=
  congrArg Program.mk (Stmt.mapAll_id p.body)

/-! ## Drafts -/

/-- The open construct with every token replaced. -/
def Hole.map (f : Token → Token) : Hole → Hole
  | .operand op => .operand (f op)
  | .right left op => .right (left.map f) (f op)
  | .assigned name => .assigned (f name)
  | .printed keyword => .printed (f keyword)
  | .group => .group

/-- The context with every token replaced. -/
def Context.map (f : Token → Token) (context : Context) : Context where
  condition := context.condition.map f
  holes := context.holes.map (Hole.map f)

/-- The place with every token replaced. -/
def Focus.map (f : Token → Token) : Focus → Focus
  | .statement => .statement
  | .operand context => .operand (context.map f)
  | .value e grouped context => .value (e.map f) grouped (context.map f)
  | .finished s => .finished (s.map f)

/-- The open construct with every token replaced. -/
def Opening.map (f : Token → Token) : Opening → Opening
  | .thenBranch keyword condition => .thenBranch (f keyword) (condition.map f)
  | .elseBranch keyword condition first => .elseBranch (f keyword) (condition.map f) (first.map f)
  | .block brace inner => .block (f brace) (inner.map (Stmt.map f))

/-- The draft with every token replaced. -/
def Draft.map (f : Token → Token) (d : Draft) : Draft where
  focus := d.focus.map f
  openings := d.openings.map (Opening.map f)
  body := d.body.map (Stmt.map f)

/-! ## Relabelling -/

/-- A way to give tokens other lexemes and lines, and what it makes of the errors about them. -/
structure Relabelling where
  /-- What becomes of a token. -/
  token : Token → Token
  /-- What becomes of an error. -/
  error : Error → Error
  kind_token (t : Token) : (token t).kind = t.kind
  error_misplaced (t : Token) (text : String) :
    error (.misplaced t text) = .misplaced (token t) text
  error_unexpectedEnd (t : Token) (text : String) :
    error (.unexpectedEnd t.line text) = .unexpectedEnd (token t).line text

namespace Relabelling

variable (m : Relabelling)

/-- What becomes of a result: `f` is what becomes of the values. -/
def result {α : Type} (f : α → α) : Except Error α → Except Error α
  | .ok x => .ok (f x)
  | .error e => .error (m.error e)

/-! ### Expressions -/

/-- Operators that bind tighter are closed alike. -/
theorem closeTighter_map (level : Nat) (e : Expr) (holes : List Hole) :
    Hole.closeTighter level (e.map m.token) (holes.map (Hole.map m.token)) =
      ((Hole.closeTighter level e holes).1.map m.token,
        (Hole.closeTighter level e holes).2.map (Hole.map m.token)) := by
  induction holes generalizing e with
  | nil => rfl
  | cons hole outer ih =>
    cases hole with
    | operand op => exact ih (.unary op e)
    | right left op =>
      simp only [List.map_cons, Hole.map, Hole.closeTighter, m.kind_token]
      split
      · exact ih (.binary left op e)
      · rfl
    | _ => rfl

/-- All open constructs up to the nearest parenthesis are closed alike. -/
theorem closeAll_map (e : Expr) (holes : List Hole) :
    Hole.closeAll (e.map m.token) (holes.map (Hole.map m.token)) =
      ((Hole.closeAll e holes).1.map m.token,
        (Hole.closeAll e holes).2.map (List.map (Hole.map m.token))) := by
  induction holes generalizing e with
  | nil => rfl
  | cons hole outer ih =>
    cases hole with
    | group => rfl
    | operand op => exact ih (.unary op e)
    | right left op => exact ih (.binary left op e)
    | assigned name => exact ih (.assign name e)
    | printed keyword => exact ih (.print keyword e)

theorem allowsTarget_map (f : Token → Token) (holes : List Hole) :
    Hole.allowsTarget (holes.map (Hole.map f)) = Hole.allowsTarget holes := by
  cases holes with
  | nil => rfl
  | cons hole outer => cases hole <;> rfl

/-- An operand is taken or rejected alike. -/
theorem stepOperand_map (context : Context) (t : Token) :
    Draft.stepOperand (context.map m.token) (m.token t) =
      m.result (Focus.map m.token) (Draft.stepOperand context t) := by
  unfold Draft.stepOperand
  rw [m.kind_token]
  split <;> first | rfl | exact congrArg Except.error (m.error_misplaced t _).symm

/-! ### Statements -/

/-- Complete `if`s are closed alike. -/
theorem closeIfs_map (f : Token → Token) (s : Stmt) (openings : List Opening) :
    Draft.closeIfs (s.map f) (openings.map (Opening.map f)) =
      ((Draft.closeIfs s openings).1.map f, (Draft.closeIfs s openings).2.map (Opening.map f)) := by
  induction openings generalizing s with
  | nil => rfl
  | cons opening outer ih =>
    cases opening with
    | thenBranch keyword condition => exact ih (.ifThen keyword condition s)
    | elseBranch keyword condition first => exact ih (.ifElse keyword condition first s)
    | block brace inner => rfl

/-- An `else` is attached to the same `if`. -/
theorem attachElse?_map (f : Token → Token) (s : Stmt) (openings : List Opening) :
    Draft.attachElse? (s.map f) (openings.map (Opening.map f)) =
      (Draft.attachElse? s openings).map (List.map (Opening.map f)) := by
  induction openings generalizing s with
  | nil => rfl
  | cons opening outer ih =>
    cases opening with
    | thenBranch keyword condition => rfl
    | elseBranch keyword condition first => exact ih (.ifElse keyword condition first s)
    | block brace inner => rfl

/-- A complete statement is added at the same place. -/
theorem add_map (f : Token → Token) (s : Stmt) (openings : List Opening) (body : List Stmt) :
    Draft.add (s.map f) (openings.map (Opening.map f)) (body.map (Stmt.map f)) =
      (Draft.add s openings body).map f := by
  unfold Draft.add
  rw [closeIfs_map]
  obtain ⟨closed, outer⟩ := Draft.closeIfs s openings
  cases outer with
  | nil => rfl
  | cons opening rest => cases opening <;> rfl

/-- A statement is begun or rejected alike. -/
theorem stepStatement_map (openings : List Opening) (body : List Stmt) (t : Token) :
    Draft.stepStatement (openings.map (Opening.map m.token)) (body.map (Stmt.map m.token))
        (m.token t) =
      m.result (Draft.map m.token) (Draft.stepStatement openings body t) := by
  have operand : (Draft.stepOperand ⟨none, []⟩ (m.token t)).map (fun focus => (⟨focus,
        openings.map (Opening.map m.token), body.map (Stmt.map m.token)⟩ : Draft)) =
      m.result (Draft.map m.token) ((Draft.stepOperand ⟨none, []⟩ t).map fun focus =>
        ⟨focus, openings, body⟩) := by
    have step := m.stepOperand_map ⟨none, []⟩ t
    show (Draft.stepOperand (Context.map m.token ⟨none, []⟩) (m.token t)).map _ = _
    rw [step]
    cases Draft.stepOperand ⟨none, []⟩ t <;> rfl
  unfold Draft.stepStatement
  rw [m.kind_token]
  cases t.kind with
  | leftBrace => rfl
  | ifWord => rfl
  | haltWord => rfl
  | rightBrace =>
    cases openings with
    | nil => exact operand
    | cons opening outer =>
      cases opening with
      | block brace inner =>
        show Except.ok (⟨.finished (.block (m.token brace) (inner.map (Stmt.map m.token)).reverse),
          _, _⟩ : Draft) = _
        rw [← List.map_reverse, ← Stmt.mapAll_eq_map]
        rfl
      | _ => exact operand
  | _ => exact operand

/-- What stands behind a statement is taken or rejected alike. -/
theorem stepFinished_map (s : Stmt) (openings : List Opening) (body : List Stmt) (t : Token) :
    Draft.stepFinished (s.map m.token) (openings.map (Opening.map m.token))
        (body.map (Stmt.map m.token)) (m.token t) =
      m.result (Draft.map m.token) (Draft.stepFinished s openings body t) := by
  have next := m.stepStatement_map (Draft.add s openings body).openings
    (Draft.add s openings body).body t
  unfold Draft.stepFinished
  rw [m.kind_token, attachElse?_map, add_map]
  cases t.kind with
  | elseWord =>
    cases Draft.attachElse? s openings with
    | none => exact next
    | some attached => rfl
  | _ => exact next

/-! ### Steps -/

/-- What ends an expression is taken or rejected alike. -/
theorem stepClose_map (e : Expr) (context : Context) (openings : List Opening) (body : List Stmt)
    (t : Token) :
    Draft.stepClose (e.map m.token) (context.map m.token) (openings.map (Opening.map m.token))
        (body.map (Stmt.map m.token)) (m.token t) =
      m.result (Draft.map m.token) (Draft.stepClose e context openings body t) := by
  obtain ⟨condition, holes⟩ := context
  unfold Draft.stepClose
  rw [Context.map, closeAll_map, m.kind_token]
  obtain ⟨closed, outer⟩ := Hole.closeAll e holes
  cases outer with
  | some outer =>
    by_cases paren : t.kind = .rightParen
    · simp only [Option.map_some, if_pos paren]
      rfl
    · simp only [Option.map_some, if_neg paren]
      exact congrArg Except.error (m.error_misplaced t _).symm
  | none =>
    cases condition with
    | some keyword => exact m.stepStatement_map (.thenBranch keyword closed :: openings) body t
    | none => exact m.stepFinished_map (.expression closed) openings body t

/-- What stands behind a value is taken or rejected alike. -/
theorem stepValue_map (e : Expr) (grouped : Bool) (context : Context) (openings : List Opening)
    (body : List Stmt) (t : Token) :
    Draft.stepValue (e.map m.token) grouped (context.map m.token)
        (openings.map (Opening.map m.token)) (body.map (Stmt.map m.token)) (m.token t) =
      m.result (Draft.map m.token) (Draft.stepValue e grouped context openings body t) := by
  unfold Draft.stepValue
  rw [m.kind_token]
  by_cases operator : 0 < t.kind.level
  · rw [if_pos operator, if_pos operator, Context.map, closeTighter_map]
    rfl
  rw [if_neg operator, if_neg operator]
  by_cases sign : t.kind = .equal
  · rw [if_pos sign, if_pos sign, Context.map, allowsTarget_map]
    have refused : Except.error (.misplaced (m.token t) Draft.invalidTarget) =
        m.result (Draft.map m.token) (.error (.misplaced t Draft.invalidTarget)) :=
      congrArg Except.error (m.error_misplaced t _).symm
    -- only a name that is not an operand may be assigned to, whatever its labels
    cases e with
    | var name =>
      cases grouped with
      | true => exact refused
      | false =>
        cases Hole.allowsTarget context.holes with
        | true => rfl
        | false => exact refused
    | _ => exact refused
  · rw [if_neg sign, if_neg sign]
    exact m.stepClose_map e context openings body t

/-- A step with a relabelled token leads to the relabelled draft, or to the relabelled error. -/
theorem step_map (d : Draft) (t : Token) :
    (d.map m.token).step (m.token t) = m.result (Draft.map m.token) (d.step t) := by
  obtain ⟨focus, openings, body⟩ := d
  cases focus with
  | statement => exact m.stepStatement_map openings body t
  | operand context =>
    have step := m.stepOperand_map context t
    show (Draft.stepOperand (context.map m.token) (m.token t)).map _ =
      m.result _ ((Draft.stepOperand context t).map _)
    rw [step]
    cases Draft.stepOperand context t <;> rfl
  | value e grouped context => exact m.stepValue_map e grouped context openings body t
  | finished s => exact m.stepFinished_map s openings body t

/-! ### The end of the tokens -/

/-- What is missing at the end is missed alike. -/
theorem finishStatement_map (t : Token) (openings : List Opening) (body : List Stmt) :
    Draft.finishStatement (m.token t).line (openings.map (Opening.map m.token))
        (body.map (Stmt.map m.token)) =
      m.result (Program.map m.token) (Draft.finishStatement t.line openings body) := by
  have missing (text : String) : Except.error (.unexpectedEnd (m.token t).line text) =
      m.result (Program.map m.token) (.error (.unexpectedEnd t.line text)) :=
    congrArg Except.error (m.error_unexpectedEnd t text).symm
  cases openings with
  | nil =>
    show Except.ok (⟨(body.map (Stmt.map m.token)).reverse⟩ : Program) = _
    rw [← List.map_reverse, ← Stmt.mapAll_eq_map]
    rfl
  | cons opening outer => cases opening <;> exact missing _

/-- The end behind a relabelled token gives the relabelled program, or the relabelled error. -/
theorem finish_map (t : Token) (d : Draft) :
    (d.map m.token).finish (m.token t).line =
      m.result (Program.map m.token) (d.finish t.line) := by
  have missing (text : String) : Except.error (.unexpectedEnd (m.token t).line text) =
      m.result (Program.map m.token) (.error (.unexpectedEnd t.line text)) :=
    congrArg Except.error (m.error_unexpectedEnd t text).symm
  have after (s : Stmt) (openings : List Opening) (body : List Stmt) :
      Draft.finishAfter (m.token t).line (s.map m.token) (openings.map (Opening.map m.token))
          (body.map (Stmt.map m.token)) =
        m.result (Program.map m.token) (Draft.finishAfter t.line s openings body) := by
    unfold Draft.finishAfter
    rw [add_map]
    exact m.finishStatement_map t _ _
  obtain ⟨focus, openings, body⟩ := d
  cases focus with
  | statement => exact m.finishStatement_map t openings body
  | operand context => exact missing _
  | finished s => exact after s openings body
  | value e grouped context =>
    obtain ⟨condition, holes⟩ := context
    simp only [Draft.finish, Draft.map, Focus.map, Context.map, closeAll_map]
    rcases Hole.closeAll e holes with ⟨closed, outer⟩
    cases outer with
    | some outer => exact missing _
    | none =>
      cases condition with
      | some keyword => exact missing _
      | none => exact after (.expression closed) openings body

/-! ### Whole programs -/

/-- Relabelled tokens behind a relabelled draft are read as they were. -/
theorem readFrom_map (d : Draft) (last : Token) (tokens : List Token) :
    (Cursor.readFrom (d.map m.token) (m.token last).line (tokens.map m.token)).1 =
      m.result (Program.map m.token) (Cursor.readFrom d last.line tokens).1 := by
  induction tokens generalizing d last with
  | nil => exact m.finish_map last d
  | cons t rest ih =>
    rw [List.map_cons, Cursor.readFrom, Cursor.readFrom, m.step_map]
    cases d.step t with
    | ok next => exact ih next t
    | error e => rfl

/-- Relabelled tokens make the relabelled program, or fail with the relabelled error. -/
theorem ofTokens_map (tokens : List Token) :
    Program.ofTokens (tokens.map m.token) =
      m.result (Program.map m.token) (Program.ofTokens tokens) := by
  cases tokens with
  | nil => rfl
  | cons t rest =>
    -- behind the first token there is a last one, so the line at the end is that of a token
    have first : Draft.empty.step (m.token t) =
        m.result (Draft.map m.token) (Draft.empty.step t) := m.step_map .empty t
    show (Cursor.readFrom .empty 1 (m.token t :: rest.map m.token)).1 =
      m.result _ (Cursor.readFrom .empty 1 (t :: rest)).1
    rw [Cursor.readFrom, Cursor.readFrom, first]
    cases Draft.empty.step t with
    | ok next => exact m.readFrom_map next t rest
    | error e => rfl

end Relabelling

/-! ## Other lines -/

/-- The token on another line. -/
def Token.reline (line : Nat → Nat) (t : Token) : Token :=
  { t with line := line t.line }

/-- The error on another line, if it is on one. -/
def Error.reline (line : Nat → Nat) : Error → Error
  | .lexical l text => .lexical (line l) text
  | .syntactic l lexeme text => .syntactic (line l) lexeme text
  | .runtime l cause text => .runtime (line l) cause text
  | .io failure => .io failure
  | .notOperator token => .notOperator (token.reline line)

/-- The program with every token on another line. -/
def Program.reline (line : Nat → Nat) (p : Program) : Program :=
  p.map (Token.reline line)

/-- Moving tokens to other lines, and errors with them. -/
def Relabelling.lines (line : Nat → Nat) : Relabelling where
  token := Token.reline line
  error := Error.reline line
  kind_token _ := rfl
  error_misplaced _ _ := rfl
  error_unexpectedEnd _ _ := rfl

/-- Moving an error moves its line. -/
theorem Error.line?_reline (line : Nat → Nat) (e : Error) :
    (e.reline line).line? = e.line?.map line := by
  cases e <;> rfl

/-- Errors that are moved twice are moved once. -/
theorem Error.reline_reline (f g : Nat → Nat) (e : Error) :
    (e.reline f).reline g = e.reline (g ∘ f) := by
  cases e <;> rfl

theorem Program.reline_reline (f g : Nat → Nat) (p : Program) :
    (p.reline f).reline g = p.reline (g ∘ f) :=
  congrArg Program.mk (Stmt.mapAll_mapAll (Token.reline f) (Token.reline g) p.body)

theorem Program.reline_id (p : Program) : p.reline id = p :=
  p.map_id

end NumScript
