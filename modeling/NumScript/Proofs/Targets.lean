/-
  What may stand in front of an `=`.

  Where an `=` fits is decided by the two tokens before it, at any depth: behind a name that is not
  itself the operand of an operator it begins an assignment to that name, behind the end of any
  other value it has no target, and anywhere else an expression is due (`LeftSide`).  Reading
  decides the same by what it has put together so far, a whole expression and a mark that a
  parenthesis leaves.

  The bridge is what a draft shows of the tokens it was read from (`Focus.EndsLike`): whether a
  value ends here and may be assigned to, and whether an operator has just been read.  One token
  more changes both by itself alone (`Draft.endsLike_step`), so both can be told from the last two
  tokens of any number that have been read.

  Which assignments a program has can be told from its tokens too: their names, in the order of the
  text, are the tokens in front of the `=`s (`Program.targets_of_ofTokens`).  This is shown on
  derivations, where no part but the value of an assignment begins behind an `=`, and none with one.
-/
import NumScript.Proofs.Diagnostics

namespace NumScript

/-! ## The last two tokens -/

/-- A token of this kind is an operator, before one operand or between two. -/
def TokenKind.isOperator : TokenKind → Bool
  | .bang | .plus | .minus | .star | .slash | .equalEqual => true
  | _ => false

/-- What stands in front of an `=`. -/
inductive LeftSide where
  /-- A name that is not an operand. -/
  | name (t : Token)
  /-- Any other value. -/
  | value
  /-- Nothing that has a value. -/
  | nothing

namespace LeftSide

/-- What this token ends; `operand` says that an operator stands before it. -/
def behind (operand : Bool) (t : Token) : LeftSide :=
  match t.kind with
  | .identifier => if operand then .value else .name t
  | .number _ | .inputWord | .rightParen => .value
  | _ => .nothing

/-- Some tokens, the last first, begin with an operator. -/
def operatorLast (reversed : List Token) : Bool :=
  reversed.head?.any fun t => t.kind.isOperator

/-- What some tokens end with, the last first. -/
def ofReversed : List Token → LeftSide
  | [] => .nothing
  | last :: before => behind (operatorLast before) last

/-- What some tokens end with. -/
def of (tokens : List Token) : LeftSide :=
  ofReversed tokens.reverse

end LeftSide

/-! ## What a draft shows of them -/

namespace Focus

/-- What ends at this place. -/
def leftSide : Focus → LeftSide
  | .value (.var name) false context =>
    if Hole.allowsTarget context.holes then .name name else .value
  | .value _ _ _ => .value
  | _ => .nothing

/-- An operator has just been read. -/
def inOperand : Focus → Bool
  | .operand context => !Hole.allowsTarget context.holes
  | _ => false

/-- The place shows what ends with these tokens, the last first, and whether that is an operator. -/
structure EndsLike (focus : Focus) (reversed : List Token) : Prop where
  leftSide : focus.leftSide = .ofReversed reversed
  inOperand : focus.inOperand = LeftSide.operatorLast reversed

/-- One token, read behind an operator or not, has led to this place. -/
structure IsBehind (focus : Focus) (operand : Bool) (t : Token) : Prop where
  leftSide : focus.leftSide = .behind operand t
  inOperand : focus.inOperand = t.kind.isOperator

end Focus

theorem Focus.IsBehind.of_kind {focus : Focus} {operand : Bool} {t : Token} {kind : TokenKind}
    (h : t.kind = kind) (behind : focus.IsBehind operand ⟨kind, t.lexeme, t.line⟩) :
    focus.IsBehind operand t := by
  subst h
  exact behind

theorem Focus.leftSide_value_grouped (e : Expr) (context : Context) :
    (Focus.value e true context).leftSide = .value := by
  cases e <;> rfl

namespace Draft

variable {openings : List Opening} {body : List Stmt} {t : Token} {d d' : Draft}

/-- An operand that is taken leads to its place. -/
theorem isBehind_stepOperand {context : Context} {focus : Focus}
    (h : stepOperand context t = .ok focus) :
    focus.IsBehind (!Hole.allowsTarget context.holes) t := by
  obtain ⟨kind, lexeme, line⟩ := t
  unfold stepOperand at h
  cases kind with
  | identifier =>
    cases h
    refine ⟨?_, rfl⟩
    show (if Hole.allowsTarget context.holes then _ else _) = if !_ then _ else _
    cases Hole.allowsTarget context.holes <;> rfl
  | number value => cases h; exact ⟨rfl, rfl⟩
  | inputWord => cases h; exact ⟨rfl, rfl⟩
  | printWord => cases h; exact ⟨rfl, rfl⟩
  | bang => cases h; exact ⟨rfl, rfl⟩
  | leftParen => cases h; exact ⟨rfl, rfl⟩
  | _ => cases h

/-- The first token of a statement leads to its place. -/
theorem isBehind_stepStatement (h : stepStatement openings body t = .ok d) :
    d.focus.IsBehind false t := by
  unfold stepStatement at h
  split at h
  case h_5 =>
    cases operand : stepOperand ⟨none, []⟩ t with
    | ok focus =>
      rw [operand] at h
      cases h
      exact isBehind_stepOperand operand
    | error e =>
      rw [operand] at h
      cases h
  all_goals
    rename_i kind
    cases h
    exact .of_kind kind ⟨rfl, rfl⟩

/-- The token behind a statement leads to its place. -/
theorem isBehind_stepFinished {s : Stmt} (h : stepFinished s openings body t = .ok d) :
    d.focus.IsBehind false t := by
  unfold stepFinished at h
  split at h
  · rename_i kind _
    cases h
    exact .of_kind kind ⟨rfl, rfl⟩
  · exact isBehind_stepStatement h

/-- The token that ends an expression leads to its place. -/
theorem isBehind_stepClose {e : Expr} {context : Context}
    (h : stepClose e context openings body t = .ok d) : d.focus.IsBehind false t := by
  unfold stepClose at h
  split at h
  · split at h
    · rename_i kind
      cases h
      exact .of_kind kind ⟨Focus.leftSide_value_grouped _ _, rfl⟩
    · cases h
  · split at h
    · exact isBehind_stepStatement h
    · exact isBehind_stepFinished h

/-- The token behind a value leads to its place. -/
theorem isBehind_stepValue {e : Expr} {grouped : Bool} {context : Context}
    (h : stepValue e grouped context openings body t = .ok d) : d.focus.IsBehind false t := by
  unfold stepValue at h
  split at h
  · rename_i operator
    cases h
    obtain ⟨kind, lexeme, line⟩ := t
    cases kind <;> first | exact absurd operator (Nat.lt_irrefl 0) | exact ⟨rfl, rfl⟩
  split at h
  · rename_i kind
    split at h
    · cases h
      exact .of_kind kind ⟨rfl, rfl⟩
    · cases h
  · exact isBehind_stepClose h

/-- What a token makes of a draft depends on that token, and on whether an operator stands before
    it. -/
theorem isBehind_step (h : d.step t = .ok d') : d'.focus.IsBehind d.focus.inOperand t := by
  obtain ⟨focus, openings, body⟩ := d
  cases focus with
  | statement => exact isBehind_stepStatement h
  | operand context =>
    cases operand : stepOperand context t with
    | ok focus =>
      simp only [step, operand] at h
      cases h
      exact isBehind_stepOperand operand
    | error e =>
      simp only [step, operand] at h
      cases h
  | value e grouped context => exact isBehind_stepValue h
  | finished s => exact isBehind_stepFinished h

/-- One token more. -/
theorem endsLike_step {reversed : List Token} (h : d.step t = .ok d')
    (before : d.focus.EndsLike reversed) : d'.focus.EndsLike (t :: reversed) := by
  obtain ⟨leftSide, inOperand⟩ := isBehind_step h
  refine ⟨?_, inOperand⟩
  rw [leftSide, before.inOperand]
  rfl

/-- Any number of tokens more. -/
theorem endsLike_after? {front reversed : List Token} (h : d.after? front = some d')
    (before : d.focus.EndsLike reversed) : d'.focus.EndsLike (front.reverse ++ reversed) := by
  induction front generalizing d reversed with
  | nil =>
    cases h
    exact before
  | cons t front ih =>
    obtain ⟨next, stepped, later⟩ := step_of_after? h
    rw [List.reverse_cons, List.append_assoc]
    exact ih later (endsLike_step stepped before)

/-- What ends with the tokens that have been read is what ends at the place that was reached. -/
theorem leftSide_after? {front : List Token} (h : empty.after? front = some d) :
    d.focus.leftSide = .of front := by
  have start : empty.focus.EndsLike [] := ⟨rfl, rfl⟩
  have reached := (endsLike_after? h start).leftSide
  rw [List.append_nil] at reached
  exact reached

/-! ## An `=` at that place -/

/-- Whether an `=` fits, and what is told if it does not, is decided by what ends before it. -/
theorem step_equal (d : Draft) {sign : Token} (kind : sign.kind = .equal) :
    match d.focus.leftSide with
    | .name _ => ∃ next, d.step sign = .ok next
    | .value => d.step sign = .error (.misplaced sign invalidTarget)
    | .nothing => d.step sign = .error (.misplaced sign expectedExpression) := by
  obtain ⟨focus, openings, body⟩ := d
  obtain ⟨_, lexeme, line⟩ := sign
  cases kind
  cases focus with
  | statement => rfl
  | operand context => rfl
  | finished s => rfl
  | value e grouped context =>
    cases e with
    | var name =>
      cases grouped with
      | true => rfl
      | false =>
        have fits : step ⟨.value (.var name) false context, openings, body⟩ ⟨.equal, lexeme, line⟩ =
            match Hole.allowsTarget context.holes with
            | true => .ok ⟨.operand (context.push (.assigned name)), openings, body⟩
            | false => .error (.misplaced ⟨.equal, lexeme, line⟩ invalidTarget) := by
          cases target : Hole.allowsTarget context.holes <;>
            simp [step, stepValue, target, TokenKind.level]
        rw [fits, Focus.leftSide]
        cases Hole.allowsTarget context.holes with
        | true => exact ⟨_, rfl⟩
        | false => rfl
    | _ => rfl

end Draft

/-- Reading ends at a token that does not fit. -/
theorem Cursor.readFrom_of_stuck {d d' : Draft} {front rest : List Token} {t : Token} {e : Error}
    (reached : d.after? front = some d') (stuck : d'.step t = .error e) (line : Nat) :
    readFrom d line (front ++ t :: rest) = (.error e, ⟨rest, t.line⟩) := by
  induction front generalizing d line with
  | nil =>
    cases reached
    rw [List.nil_append, readFrom, stuck]
  | cons u front ih =>
    obtain ⟨next, stepped, later⟩ := Draft.step_of_after? reached
    rw [List.cons_append, readFrom, stepped]
    exact ih later u.line

/-! ## Assignments in a text -/

/-- The token is an `=`. -/
def Token.isSign (t : Token) : Bool :=
  t.kind = .equal

/-- The tokens in front of the `=`s, in order. -/
def Token.targets : List Token → List Token
  | [] => []
  | t :: rest => if rest.head?.any isSign then t :: targets rest else targets rest

namespace Token

theorem isSign_of_kind {t : Token} (h : t.kind = .equal) : t.isSign = true := by
  rw [isSign, h]
  rfl

/-- What stops an expression is no `=`. -/
theorem isSign_of_stops {n : Nat} {tokens : List Token} (h : Stops n tokens) :
    tokens.head?.any isSign = false := by
  cases tokens with
  | nil => rfl
  | cons t rest => exact decide_eq_false (h t rfl).2

/-- A token is no target where an expression stops behind it. -/
theorem targets_cons {n : Nat} (t : Token) {rest : List Token} (h : Stops n rest) :
    targets (t :: rest) = targets rest := by
  rw [targets, isSign_of_stops h]
  rfl

/-- Two parts meet in a token: the targets are those of both. -/
theorem targets_append_cons (front : List Token) (t : Token) (rest : List Token) :
    targets (front ++ t :: rest) = targets (front ++ [t]) ++ targets (t :: rest) := by
  induction front with
  | nil => rfl
  | cons u front ih =>
    have same : (front ++ t :: rest).head? = (front ++ [t]).head? := by cases front <;> rfl
    rw [List.cons_append, List.cons_append, targets, targets, same, ih]
    split <;> rfl

/-- Where the second part does not begin with an `=`, the targets are those of both parts. -/
theorem targets_append {n : Nat} (front : List Token) {rest : List Token} (h : Stops n rest) :
    targets (front ++ rest) = targets front ++ targets rest := by
  cases rest with
  | nil => rw [List.append_nil]; exact (List.append_nil _).symm
  | cons t rest =>
    have none : targets (front ++ [t]) = targets front := by
      induction front with
      | nil => rfl
      | cons u front ih =>
        have same : (front ++ [t]).head?.any isSign = front.head?.any isSign := by
          cases front with
          | nil => exact isSign_of_stops h
          | cons v front => rfl
        rw [List.cons_append, targets, targets, same, ih]
    rw [targets_append_cons, none]

/-- One target for each `=` but a leading one. -/
theorem length_targets {n : Nat} {tokens : List Token} (h : Stops n tokens) :
    (targets tokens).length = tokens.countP isSign := by
  have each : ∀ (t : Token) (rest : List Token),
      (targets (t :: rest)).length = rest.countP isSign := by
    intro t rest
    induction rest generalizing t with
    | nil => rfl
    | cons u rest ih =>
      rw [targets, List.countP_cons, ← ih u]
      show (if isSign u then _ else _ : List Token).length = _ + if isSign u then 1 else 0
      split <;> rfl
  cases tokens with
  | nil => rfl
  | cons t rest =>
    have noSign : isSign t = false := isSign_of_stops h
    rw [each, List.countP_cons, noSign]
    rfl

end Token

/-! ## Assignments in a tree -/

/-- The name that the expression itself assigns to. -/
def Expr.target? : Expr → Option Token
  | .assign name _ => some name
  | _ => none

/-- The names of the assignments in the program, in the order of the text. -/
def Program.targets (p : Program) : List Token :=
  p.nodes.filterMap Expr.target?

namespace Grammar

open Token

/-- What begins a derivation stops the expression before it. -/
theorem Derivation.stops {p : Phrase} (d : Derivation p) (after : List Token) :
    Stops 1 (d.tokens ++ after) := by
  obtain ⟨t, rest, tokens, begins⟩ := d.exists_first
  rw [tokens, List.cons_append]
  exact .of_beginsStatement (TokenKind.beginsStatement_of_beginsExpression begins) _

theorem Derivation.stops_tokens {p : Phrase} (d : Derivation p) : Stops 1 d.tokens := by
  have stops := d.stops []
  rw [List.append_nil] at stops
  exact stops

mutual

/-- The assignments of an expression are to the tokens in front of the `=`s. -/
theorem Derivation.targets_tree : ∀ {p : Phrase} (d : Derivation p),
    d.tree.nodes.filterMap Expr.target? = targets d.tokens
  | _, .assign name sign value _ sign_kind => by
    have isSign : isSign sign = true := isSign_of_kind sign_kind
    show name :: value.tree.nodes.filterMap Expr.target? =
      if Token.isSign sign then name :: targets (sign :: value.tokens) else _
    rw [isSign, if_pos rfl, targets_cons sign value.stops_tokens, value.targets_tree]
  | _, .plain e => e.targets_tree
  | _, .chain first rest => by
    rw [Derivation.tree, Derivation.tokens, targets_append _ rest.stops_tokens,
      rest.targets_fold, first.targets_tree]
  | _, .bang op operand _ => by
    rw [Derivation.tokens, targets_cons op operand.stops_tokens, ← operand.targets_tree]
    rfl
  | _, .primary e => e.targets_tree
  | _, .group left e right _ right_kind => by
    have stops : Stops 1 [right] := .of_kind right_kind (by decide) (by decide) []
    rw [Derivation.tokens, targets_cons left (e.stops [right]), targets_append _ stops,
      ← e.targets_tree]
    exact (List.append_nil _).symm
  | _, .print keyword e _ => by
    rw [Derivation.tokens, targets_cons keyword e.stops_tokens, ← e.targets_tree]
    rfl
  | _, .input _ _ => rfl
  | _, .number _ _ _ => rfl
  | _, .name _ _ => rfl

/-- The operands that operators add bring the assignments behind them. -/
theorem Tail.targets_fold : ∀ {level : Level} (r : Tail level) (left : Expr),
    (r.fold left).nodes.filterMap Expr.target? =
      left.nodes.filterMap Expr.target? ++ targets r.tokens
  | _, .done, left => (List.append_nil _).symm
  | _, .more op operand rest _, left => by
    rw [Tail.fold, rest.targets_fold, Tail.tokens, targets_cons op (operand.stops rest.tokens),
      targets_append _ rest.stops_tokens, ← operand.targets_tree, ← List.append_assoc,
      ← List.filterMap_append]
    rfl

end

mutual

/-- The names that a statement assigns to are the targets among its tokens. -/
theorem Statement.targets_tree : ∀ s : Statement,
    s.tree.nodes.filterMap Expr.target? = targets s.tokens
  | .block left body right _ right_kind => by
    have stops : Stops 1 [right] := .of_kind right_kind (by decide) (by decide) []
    have inner : Stops 1 (tokensAll body ++ [right]) :=
      (Stops.tokensAll body (.cons right_kind [])).1
    rw [tree, Stmt.nodes, tokens, targets_cons left inner, targets_append _ stops,
      targets_treeAll body]
    exact (List.append_nil _).symm
  | .ifThen keyword condition thenBranch _ => by
    rw [tree, Stmt.nodes, tokens, targets_cons keyword (condition.stops thenBranch.tokens),
      targets_append _ thenBranch.stops_tokens, List.filterMap_append, condition.targets_tree,
      targets_tree thenBranch]
  | .ifElse keyword condition thenBranch separator elseBranch _ separator_kind => by
    have stops : Stops 1 (separator :: elseBranch.tokens) :=
      .of_kind separator_kind (by decide) (by decide) elseBranch.tokens
    rw [tree, Stmt.nodes, tokens, List.append_assoc, targets_cons keyword (condition.stops _),
      targets_append _ (thenBranch.stops _), targets_append _ stops,
      targets_cons separator elseBranch.stops_tokens, List.filterMap_append,
      List.filterMap_append, condition.targets_tree, targets_tree thenBranch,
      targets_tree elseBranch]
  | .halt _ _ => rfl
  | .expression e => by
    rw [tree, Stmt.nodes]
    exact e.targets_tree

theorem Statement.targets_treeAll : ∀ statements : List Statement,
    (Stmt.nodesAll (treeAll statements)).filterMap Expr.target? = targets (tokensAll statements)
  | [] => rfl
  | s :: rest => by
    rw [treeAll, Stmt.nodesAll, tokensAll, targets_append _ (stops_tokensAll rest),
      List.filterMap_append, targets_tree s, targets_treeAll rest]

end

end Grammar

open Token

/-- The assignments of a program are to the tokens in front of the `=`s, one to each. -/
theorem Program.targets_of_ofTokens {tokens : List Token} {p : Program}
    (h : ofTokens tokens = .ok p) :
    p.targets = Token.targets tokens ∧ p.targets.length = tokens.countP isSign := by
  obtain ⟨statements, rfl, _, rfl⟩ := exists_isMeant_tree h
  have same := Grammar.Statement.targets_treeAll statements
  refine ⟨same, ?_⟩
  show (List.filterMap Expr.target? (Stmt.nodesAll _)).length = _
  rw [same]
  exact length_targets (Grammar.Statement.stops_tokensAll statements)

/-- The token in front of an `=` is the name of an assignment: of the one before which there are as
    many others as there are `=`s before this one. -/
theorem Program.getElem?_targets {front more : List Token} {name sign : Token} {p : Program}
    (h : ofTokens (front ++ name :: sign :: more) = .ok p) (kind : sign.kind = .equal) :
    p.targets[(front ++ [name]).countP isSign]? = some name := by
  have here : Token.targets (name :: sign :: more) = name :: Token.targets (sign :: more) := by
    show (if isSign sign then name :: _ else _) = _
    rw [isSign_of_kind kind, if_pos rfl]
  -- a program does not begin with an `=`, so each of those before has its target
  have stops : Stops 1 (front ++ [name]) := by
    obtain ⟨statements, same, _⟩ := exists_isMeant h
    have whole := Grammar.Statement.stops_tokensAll statements
    rw [same] at whole
    cases front with
    | nil => exact whole
    | cons t front => exact whole
  have before := length_targets stops
  rw [(targets_of_ofTokens h).1, targets_append_cons, here, ← before,
    List.getElem?_append_right (Nat.le_refl _), Nat.sub_self]
  rfl

/-! ## Every `=` -/

namespace LeftSide

/-- Only the last token itself is the name that is ended with. -/
theorem eq_of_behind {operand : Bool} {last name : Token} (h : behind operand last = .name name) :
    last = name := by
  unfold behind at h
  split at h
  · split at h
    · cases h
    · exact LeftSide.name.inj h
  · cases h
  · cases h
  · cases h
  · cases h

/-- A name that ends some tokens is the last of them. -/
theorem exists_of_name {tokens : List Token} {name : Token} (h : of tokens = .name name) :
    ∃ front, tokens = front ++ [name] := by
  unfold of at h
  cases reversed : tokens.reverse with
  | nil =>
    rw [reversed] at h
    cases h
  | cons last before =>
    rw [reversed] at h
    obtain rfl : last = name := eq_of_behind h
    refine ⟨before.reverse, ?_⟩
    rw [← List.reverse_reverse tokens, reversed, List.reverse_cons]

end LeftSide

/-- The two tokens before an `=` decide what it is.  Let it stand at some place of some tokens,
    those before it being viable.  Behind a name that is not an operand it fits, and in every
    program that the tokens up to it begin, it makes that name the target of an assignment.  Behind
    the end of any other value it is reported as having no target, and anywhere else as standing
    where an expression is due, and reading ends there.  And a program that is read has one
    assignment for each `=`, each to the token in front of it. -/
theorem Cursor.program_at_sign (tokens : List Token) :
    (∀ i sign, tokens[i]? = some sign → sign.kind = .equal → Viable (tokens.take i) →
      match LeftSide.of (tokens.take i) with
      | .name name =>
        Viable (tokens.take (i + 1)) ∧
          ∀ more p, Program.ofTokens (tokens.take (i + 1) ++ more) = .ok p →
            p.targets[(tokens.take i).countP Token.isSign]? = some name
      | .value =>
        program ⟨tokens, 1⟩ = (.error (.misplaced sign "Invalid assignment target."),
          ⟨tokens.drop (i + 1), sign.line⟩)
      | .nothing =>
        program ⟨tokens, 1⟩ = (.error (.misplaced sign "Expected expression."),
          ⟨tokens.drop (i + 1), sign.line⟩)) ∧
    ∀ p, (program ⟨tokens, 1⟩).1 = .ok p →
      p.targets = Token.targets tokens ∧ p.targets.length = tokens.countP Token.isSign := by
  refine ⟨?_, fun p => Program.targets_of_ofTokens⟩
  intro i sign here kind viable
  obtain ⟨inside, rfl⟩ := List.getElem?_eq_some_iff.mp here
  have split : tokens = tokens.take i ++ tokens[i] :: tokens.drop (i + 1) := by
    rw [← List.drop_eq_getElem_cons inside, List.take_append_drop]
  have upTo : tokens.take (i + 1) = tokens.take i ++ [tokens[i]] := by
    rw [List.take_succ_eq_append_getElem inside]
  obtain ⟨more, p, made⟩ := viable
  obtain ⟨d, reached⟩ := Draft.exists_after?_of_program? (Program.ofTokens_eq_ok_iff.mp made)
  have decided := d.step_equal kind
  rw [Draft.leftSide_after? reached] at decided
  have stops {e : Error} (stuck : d.step tokens[i] = .error e) :
      program ⟨tokens, 1⟩ = (.error e, ⟨tokens.drop (i + 1), tokens[i].line⟩) := by
    rw [← readFrom_of_stuck reached stuck 1, ← split]
    rfl
  cases leftSide : LeftSide.of (tokens.take i) with
  | value =>
    rw [leftSide] at decided
    exact stops decided
  | nothing =>
    rw [leftSide] at decided
    exact stops decided
  | name name =>
    rw [leftSide] at decided
    obtain ⟨next, stepped⟩ := decided
    obtain ⟨front, last⟩ := LeftSide.exists_of_name leftSide
    refine ⟨?_, ?_⟩
    · have whole : Draft.empty.after? (tokens.take (i + 1)) = some next := by
        rw [upTo, Draft.after?_append reached, Draft.after?, stepped]
        rfl
      exact .of_after? whole
    · intro more p made
      rw [upTo, last, List.append_assoc, List.append_assoc] at made
      rw [last]
      exact Program.getElem?_targets made kind

/-- Behind `!x` stands the end of a value, and so it does behind `(x)`; a name alone is a name. -/
example (x : Token) (h : x.kind = .identifier) :
    LeftSide.of [⟨.bang, "!", 1⟩, x] = .value ∧
      LeftSide.of [⟨.leftParen, "(", 1⟩, x, ⟨.rightParen, ")", 1⟩] = .value ∧
      LeftSide.of [⟨.leftParen, "(", 1⟩, x] = .name x := by
  obtain ⟨kind, lexeme, line⟩ := x
  obtain rfl : kind = .identifier := h
  exact ⟨rfl, rfl, rfl⟩

end NumScript
