/-
  In which order the tokens of a program act.

  Three kinds of tokens ask for something to be done: an `input` for a line, a `print` for a value
  to be written, and the name in an assignment for a value (`Deed`).  Each of them is obeyed at most
  once in a run, and the `input`s and the `print`s are obeyed in the order of the text
  (`Program.obeyed_in_order`): what was not obeyed stood in another branch, or behind a `halt` or an
  error.  Where nothing can be passed over, every one of them is obeyed.

  A tree says of each kind of deed who asks for it (`Expr.asking`), and the tokens that are obeyed
  are a sublist of those (`Stmt.obeyed_sublist`).  The crux is `print`: it acts after its operand,
  but stands before it.  That makes no difference because its operand has a value only if there is
  no `print` in it (`Expr.asking_printing_of_value`); so of nested `print`s only the innermost is
  obeyed, and an expression writes once at most.  An assignment acts after its operand too, and
  `x = y = 1` gives its value to `y` first; so assignments are obeyed in an order of their own.
-/
import Mathlib.Data.Fintype.Fin
import Mathlib.Data.List.NodupEquivFin
import NumScript.Proofs.Faults
import NumScript.Proofs.KeptTokens
import NumScript.Proofs.Output

namespace NumScript

/-! ## Deeds -/

/-- What a token can ask for, prompts aside. -/
inductive Deed where
  | reading
  | printing
  | assigning
deriving DecidableEq

/-- The kind of the tokens that ask for it. -/
def Deed.kind : Deed → TokenKind
  | .reading => .inputWord
  | .printing => .printWord
  | .assigning => .identifier

/-- The deed that the action is; showing a prompt is none. -/
def Action.deed? : Action → Option Deed
  | assign _ _ => some .assigning
  | prompt _ _ => none
  | read _ => some .reading
  | print _ _ => some .printing

namespace Deed

variable {deed : Deed}

/-- The actions that are such deeds. -/
def done (deed : Deed) (actions : List Action) : List Action :=
  actions.filter fun action => action.deed? = some deed

/-- The tokens that asked for the deeds that were done. -/
def obeyed (deed : Deed) (actions : List Action) : List Token :=
  (deed.done actions).map Action.token

/-- A token that asks for one kind of deed only. -/
def only (deed own : Deed) (t : Token) : List Token :=
  if deed = own then [t] else []

/-- The deeds of joined actions are those of the first and then those of the second. -/
theorem done_append (deed : Deed) (actions actions' : List Action) :
    deed.done (actions ++ actions') = deed.done actions ++ deed.done actions' :=
  List.filter_append actions actions'

/-- The tokens that joined actions obey are joined as well. -/
theorem obeyed_append (deed : Deed) (actions actions' : List Action) :
    deed.obeyed (actions ++ actions') = deed.obeyed actions ++ deed.obeyed actions' := by
  rw [obeyed, done_append, List.map_append]
  rfl

@[simp] theorem obeyed_assign (name : Token) (x : Float) :
    deed.obeyed [.assign name x] = deed.only .assigning name := by
  cases deed <;> rfl

@[simp] theorem obeyed_print (keyword : Token) (x : Float) :
    deed.obeyed [.print keyword x] = deed.only .printing keyword := by
  cases deed <;> rfl

@[simp] theorem obeyed_read (keyword : Token) :
    deed.obeyed [.read keyword] = deed.only .reading keyword := by
  cases deed <;> rfl

/-- Prompts are no deeds. -/
@[simp] theorem obeyed_prompt (keyword : Token) (prompt : Option String) :
    deed.obeyed (prompt.map (.prompt keyword)).toList = [] := by
  cases prompt <;> rfl

/-- The tokens obeyed by two effects, if the first gives a value, are those of both. -/
theorem obeyed_bind {α : Type} {a : Effect α} {t : Session → List Action}
    {u : α → Session → List Action} {s s' : Session} {x : α} (h : a s = .ok x s') :
    deed.obeyed (t s ++ a.andThen u s) = deed.obeyed (t s) ++ deed.obeyed (u x s') := by
  rw [obeyed_append, Effect.andThen_of_ok h]

/-- What is obeyed by two effects is a sublist of what may be obeyed by the one and by the other. -/
theorem obeyed_bind_sublist {α : Type} {a : Effect α} {t : Session → List Action}
    {u : α → Session → List Action} {s : Session} {first later : List Token}
    (h : (deed.obeyed (t s)).Sublist first)
    (h' : ∀ x s', (deed.obeyed (u x s')).Sublist later) :
    (deed.obeyed (t s ++ a.andThen u s)).Sublist (first ++ later) := by
  cases run : a s with
  | ok x s' =>
    rw [obeyed_bind run]
    exact h.append (h' x s')
  | error e s' =>
    rw [Effect.andThen_of_error run, List.append_nil]
    exact h.trans (List.sublist_append_left _ _)

end Deed

open Deed Effect

/-! ## Who asks -/

/-- The tokens of the expression that ask for such a deed: assignments in the order in which their
    values are had, and all others in the order of the text. -/
def Expr.asking (deed : Deed) : Expr → List Token
  | .assign name value => value.asking deed ++ deed.only .assigning name
  | .binary left _ right => left.asking deed ++ right.asking deed
  | .input keyword => deed.only .reading keyword
  | .literal _ _ => []
  | .print keyword value => deed.only .printing keyword ++ value.asking deed
  | .unary _ operand => operand.asking deed
  | .var _ => []

mutual

/-- The tokens of the statement that ask for such a deed. -/
def Stmt.asking (deed : Deed) : Stmt → List Token
  | .block _ body => askingAll deed body
  | .expression e => e.asking deed
  | .halt _ => []
  | .ifThen _ condition thenBranch => condition.asking deed ++ thenBranch.asking deed
  | .ifElse _ condition thenBranch elseBranch =>
    condition.asking deed ++ (thenBranch.asking deed ++ elseBranch.asking deed)

/-- The tokens of some statements that ask for such a deed. -/
def Stmt.askingAll (deed : Deed) : List Stmt → List Token
  | [] => []
  | s :: rest => s.asking deed ++ askingAll deed rest

end

/-! ## Expressions -/

namespace Expr

/-- An expression that has a value is no `print`. -/
theorem eval_of_value {e : Expr} {s s' : Session} {x : Float} (h : e.value s = .ok x s') :
    e.eval s = .ok (some x) s' := by
  obtain ⟨y, u, ended, needed⟩ := of_bind_eq_ok h
  cases y with
  | none => cases needed
  | some y =>
    cases needed
    exact ended

/-- An expression that has a value does not write. -/
theorem asking_printing_of_value : ∀ {e : Expr} {s s' : Session} {x : Float},
    e.value s = .ok x s' → e.asking .printing = []
  | .assign name value, s, s', x, h => by
    have ended := eval_of_value h
    rw [eval, value.bind_value] at ended
    obtain ⟨y, u, first, _⟩ := of_bind_eq_ok ended
    rw [asking, asking_printing_of_value first]
    rfl
  | .binary left op right, s, s', x, h => by
    have ended := eval_of_value h
    rw [eval, left.bind_value] at ended
    obtain ⟨y, u, first, rest⟩ := of_bind_eq_ok ended
    rw [right.bind_value] at rest
    obtain ⟨z, v, second, _⟩ := of_bind_eq_ok rest
    rw [asking, asking_printing_of_value first, asking_printing_of_value second]
    rfl
  | .input keyword, _, _, _, _ => rfl
  | .literal token value, _, _, _, _ => rfl
  | .print keyword value, s, s', x, h => by
    have ended := eval_of_value h
    rw [eval, value.bind_value] at ended
    obtain ⟨y, u, _, rest⟩ := of_bind_eq_ok ended
    obtain ⟨_, v, _, no⟩ := of_bind_eq_ok rest
    cases no
  | .unary op operand, s, s', x, h => by
    have ended := eval_of_value h
    rw [eval, operand.bind_value] at ended
    obtain ⟨y, u, first, _⟩ := of_bind_eq_ok ended
    rw [asking, asking_printing_of_value first]
  | .var name, _, _, _, _ => rfl

/-- A `print` that gets its value is the only one there, so it comes behind its operand as well as
    before it. -/
theorem asking_print_of_value (deed : Deed) {keyword : Token} {value : Expr} {s s' : Session}
    {x : Float} (h : value.value s = .ok x s') :
    (Expr.print keyword value).asking deed = value.asking deed ++ deed.only .printing keyword := by
  rw [asking]
  cases deed with
  | printing =>
    rw [asking_printing_of_value h]
    rfl
  | reading => exact (List.append_nil _).symm
  | assigning => exact (List.append_nil _).symm

/-- All tokens of an expression that does not fail are obeyed. -/
theorem obeyed_of_eval (deed : Deed) : ∀ {e : Expr} {s s' : Session} {v : Option Float},
    e.eval s = .ok v s' → deed.obeyed (e.trace s) = e.asking deed
  | .assign name value, s, s', v, h => by
    rw [eval, value.bind_value] at h
    obtain ⟨x, u, first, _⟩ := of_bind_eq_ok h
    rw [trace, obeyed_bind first, obeyed_of_eval deed (eval_of_value first), obeyed_assign, asking]
  | .binary left op right, s, s', v, h => by
    rw [eval, left.bind_value] at h
    obtain ⟨x, u, first, rest⟩ := of_bind_eq_ok h
    rw [right.bind_value] at rest
    obtain ⟨y, w, second, _⟩ := of_bind_eq_ok rest
    rw [trace, obeyed_bind first, obeyed_of_eval deed (eval_of_value first),
      obeyed_of_eval deed (eval_of_value second), asking]
  | .input keyword, s, s', v, h => by
    rw [eval, readNumber, bind_assoc] at h
    obtain ⟨_, u, shown, _⟩ := of_bind_eq_ok h
    rw [trace, obeyed_append, andThen_of_ok shown, obeyed_prompt, obeyed_read]
    rfl
  | .literal token value, _, _, _, _ => rfl
  | .print keyword value, s, s', v, h => by
    rw [eval, value.bind_value] at h
    obtain ⟨x, u, first, _⟩ := of_bind_eq_ok h
    rw [trace, obeyed_bind first, obeyed_of_eval deed (eval_of_value first), obeyed_print,
      asking_print_of_value deed first]
  | .unary op operand, s, s', v, h => by
    rw [eval, operand.bind_value] at h
    obtain ⟨x, u, first, _⟩ := of_bind_eq_ok h
    rw [trace, asking, obeyed_of_eval deed (eval_of_value first)]
  | .var name, _, _, _, _ => rfl

/-- The tokens of an expression that are obeyed are some of those that ask, in their order. -/
theorem obeyed_sublist (deed : Deed) : ∀ (e : Expr) (s : Session),
    (deed.obeyed (e.trace s)).Sublist (e.asking deed)
  | .assign name value, s => by
    refine obeyed_bind_sublist (obeyed_sublist deed value s) fun x _ => ?_
    rw [obeyed_assign]
  | .binary left op right, s =>
    obeyed_bind_sublist (obeyed_sublist deed left s) fun _ s' => obeyed_sublist deed right s'
  | .input keyword, s => by
    rw [trace, asking, obeyed_append, obeyed_prompt, List.nil_append]
    cases shown : showPrompt s with
    | ok _ s' => rw [andThen_of_ok shown, obeyed_read]
    | error e s' =>
      rw [andThen_of_error shown]
      exact List.nil_sublist _
  | .literal token value, _ => List.Sublist.slnil
  | .print keyword value, s => by
    have inner := obeyed_sublist deed value s
    cases run : value.value s with
    | ok x s' =>
      rw [asking_print_of_value deed run, trace, obeyed_bind run, obeyed_print]
      exact inner.append_right _
    | error e s' =>
      have failed : deed.obeyed ((print keyword value).trace s) = deed.obeyed (value.trace s) := by
        rw [trace, obeyed_append, andThen_of_error run]
        exact List.append_nil _
      rw [failed]
      exact inner.trans (List.sublist_append_right _ _)
  | .unary op operand, s => obeyed_sublist deed operand s
  | .var name, _ => List.Sublist.slnil

end Expr

/-! ## Statements -/

mutual

/-- The statement has neither choices nor `halt`s. -/
def Stmt.IsStraight : Stmt → Prop
  | .block _ body => AreStraight body
  | .expression _ => True
  | .halt _ => False
  | .ifThen _ _ _ => False
  | .ifElse _ _ _ _ => False

/-- The statements have neither choices nor `halt`s. -/
def Stmt.AreStraight : List Stmt → Prop
  | [] => True
  | s :: rest => s.IsStraight ∧ AreStraight rest

end

mutual

/-- The tokens of a statement that are obeyed are some of those that ask, in their order. -/
theorem Stmt.obeyed_sublist (deed : Deed) : ∀ (stmt : Stmt) (s : Session),
    (deed.obeyed (stmt.trace s)).Sublist (stmt.asking deed)
  | .block _ body, s => by
    rw [trace, asking]
    exact obeyed_sublist_all deed body s
  | .expression e, s => by
    rw [trace, asking]
    exact e.obeyed_sublist deed s
  | .halt _, s => by
    rw [trace]
    exact List.nil_sublist _
  | .ifThen _ condition thenBranch, s => by
    rw [trace, asking]
    refine obeyed_bind_sublist (condition.obeyed_sublist deed s) fun b s' => ?_
    cases b with
    | true => exact obeyed_sublist deed thenBranch s'
    | false => exact List.nil_sublist _
  | .ifElse _ condition thenBranch elseBranch, s => by
    rw [trace, asking]
    refine obeyed_bind_sublist (condition.obeyed_sublist deed s) fun b s' => ?_
    cases b with
    | true => exact (obeyed_sublist deed thenBranch s').trans (List.sublist_append_left _ _)
    | false => exact (obeyed_sublist deed elseBranch s').trans (List.sublist_append_right _ _)

/-- Some statements obey no other tokens than those that ask, and keep their order. -/
theorem Stmt.obeyed_sublist_all (deed : Deed) : ∀ (body : List Stmt) (s : Session),
    (deed.obeyed (traceAll body s)).Sublist (askingAll deed body)
  | [], _ => by
    rw [traceAll]
    exact List.nil_sublist _
  | stmt :: rest, s => by
    rw [traceAll, askingAll]
    refine obeyed_bind_sublist (obeyed_sublist deed stmt s) fun outcome s' => ?_
    cases outcome with
    | completed => exact obeyed_sublist_all deed rest s'
    | halted => exact List.nil_sublist _

end

mutual

/-- All tokens are obeyed of a statement that is completed and passes nothing over. -/
theorem Stmt.obeyed_of_exec (deed : Deed) : ∀ {stmt : Stmt} {s s' : Session}, stmt.IsStraight →
    stmt.exec s = .ok .completed s' → deed.obeyed (stmt.trace s) = stmt.asking deed
  | .block _ body, s, s', straight, h => by
    rw [IsStraight] at straight
    rw [exec] at h
    rw [trace, asking, obeyed_of_execAll deed straight h]
  | .expression e, s, s', _, h => by
    rw [exec] at h
    obtain ⟨_, u, discarded, _⟩ := of_bind_eq_ok h
    obtain ⟨v, w, ended, _⟩ := of_bind_eq_ok discarded
    rw [trace, asking, Expr.obeyed_of_eval deed ended]
  | .halt _, _, _, straight, _ => by
    rw [IsStraight] at straight
    exact straight.elim
  | .ifThen _ _ _, _, _, straight, _ => by
    rw [IsStraight] at straight
    exact straight.elim
  | .ifElse _ _ _ _, _, _, straight, _ => by
    rw [IsStraight] at straight
    exact straight.elim

/-- Straight statements that are completed obey all tokens that ask. -/
theorem Stmt.obeyed_of_execAll (deed : Deed) : ∀ {body : List Stmt} {s s' : Session},
    AreStraight body → execAll body s = .ok .completed s' →
    deed.obeyed (traceAll body s) = askingAll deed body
  | [], _, _, _, _ => by
    rw [traceAll, askingAll]
    rfl
  | stmt :: rest, s, s', straight, h => by
    rw [AreStraight] at straight
    rw [execAll] at h
    obtain ⟨outcome, u, first, later⟩ := of_bind_eq_ok h
    cases outcome with
    | halted => cases later
    | completed =>
      rw [traceAll, obeyed_bind first, obeyed_of_exec deed straight.1 first, askingAll]
      exact congrArg _ (obeyed_of_execAll deed straight.2 later)

end

/-! ## The tokens of the text -/

namespace Deed

variable {deed : Deed} {t : Token} {k : TokenKind}

/-- The tokens of the kind that asks for the deed. -/
def askers (deed : Deed) (tokens : List Token) : List Token :=
  tokens.filter fun t => t.kind = deed.kind

/-- The tokens that ask among joined ones are joined as well. -/
theorem askers_append (deed : Deed) (tokens tokens' : List Token) :
    deed.askers (tokens ++ tokens') = deed.askers tokens ++ deed.askers tokens' :=
  List.filter_append tokens tokens'

theorem askers_cons (own : Deed) (kind : t.kind = own.kind) (rest : List Token) :
    deed.askers (t :: rest) = deed.only own t ++ deed.askers rest := by
  unfold askers only
  by_cases h : deed = own
  · rw [List.filter_cons_of_pos (by rw [kind, h, decide_eq_true rfl]), if_pos h]
    rfl
  · have other : own.kind ≠ deed.kind := by
      intro same
      cases deed <;> cases own <;> first | exact h rfl | cases same
    rw [List.filter_cons_of_neg (by rw [kind, decide_eq_false other]; exact Bool.false_ne_true),
      if_neg h]
    rfl

/-- A token of any other kind asks for nothing. -/
theorem askers_cons_of_ne (kind : t.kind = k) (h : ∀ own : Deed, own.kind ≠ k)
    (rest : List Token) : deed.askers (t :: rest) = deed.askers rest :=
  List.filter_cons_of_neg (by
    rw [kind, decide_eq_false (h deed).symm]
    exact Bool.false_ne_true)

theorem askers_singleton (own : Deed) (kind : t.kind = own.kind) :
    deed.askers [t] = deed.only own t := by
  rw [askers_cons own kind]
  exact List.append_nil _

/-- Operators ask for nothing. -/
theorem kind_ne_of_binary (h : k ∈ binaryOperators) (own : Deed) : own.kind ≠ k := by
  rintro rfl
  cases own <;> exact absurd h (by decide)

theorem only_assigning (h : deed ≠ .assigning) (t : Token) : deed.only .assigning t = [] :=
  if_neg h

/-- Trees keep the tokens that ask for something. -/
theorem askers_kept (deed : Deed) (tokens : List Token) :
    deed.askers (Token.kept tokens) = deed.askers tokens := by
  rw [askers, Token.kept, List.filter_filter]
  refine List.filter_congr fun t _ => ?_
  by_cases kind : t.kind = deed.kind
  · rw [kind]
    cases deed <;> rfl
  · rw [decide_eq_false kind, Bool.false_and]

end Deed

section Trees

variable {deed : Deed}

/-- What asks for lines and for values to be written are the tokens of these kinds. -/
theorem Expr.askers_tokens (h : deed ≠ .assigning) : ∀ {e : Expr}, e.WellFormed →
    deed.askers e.tokens = e.asking deed
  | .assign name value, ⟨name_kind, inner⟩ => by
    rw [tokens, askers_cons .assigning name_kind, askers_tokens h inner, asking,
      only_assigning h, List.nil_append, List.append_nil]
  | .binary left op right, ⟨first, op_kind, second⟩ => by
    rw [tokens, askers_append, askers_cons_of_ne rfl (kind_ne_of_binary op_kind),
      askers_tokens h first, askers_tokens h second, asking]
  | .input keyword, kind => askers_singleton .reading kind
  | .literal token value, kind => by
    rw [tokens, askers_cons_of_ne kind (by rintro ⟨⟩ <;> nofun), asking]
    rfl
  | .print keyword value, ⟨kind, inner⟩ => by
    rw [tokens, askers_cons .printing kind, askers_tokens h inner, asking]
  | .unary op operand, ⟨kind, inner⟩ => by
    rw [tokens, askers_cons_of_ne kind (by rintro ⟨⟩ <;> nofun), askers_tokens h inner, asking]
  | .var name, kind => by
    rw [tokens, askers_singleton .assigning kind, asking, only_assigning h]

mutual

theorem Stmt.askers_tokens (h : deed ≠ .assigning) : ∀ {stmt : Stmt}, stmt.WellFormed →
    deed.askers stmt.tokens = stmt.asking deed
  | .block brace body, formed => by
    rw [WellFormed] at formed
    rw [tokens, askers_cons_of_ne formed.1 (by rintro ⟨⟩ <;> nofun),
      askers_tokensAll h formed.2, asking]
  | .expression e, formed => by
    rw [WellFormed] at formed
    rw [tokens, Expr.askers_tokens h formed, asking]
  | .halt keyword, formed => by
    rw [WellFormed] at formed
    rw [tokens, askers_cons_of_ne formed (by rintro ⟨⟩ <;> nofun), asking]
    rfl
  | .ifThen keyword condition thenBranch, formed => by
    rw [WellFormed] at formed
    obtain ⟨kind, inner, branch⟩ := formed
    rw [tokens, askers_cons_of_ne kind (by rintro ⟨⟩ <;> nofun), askers_append,
      Expr.askers_tokens h inner, askers_tokens h branch, asking]
  | .ifElse keyword condition thenBranch elseBranch, formed => by
    rw [WellFormed] at formed
    obtain ⟨kind, inner, branch, other⟩ := formed
    rw [tokens, askers_cons_of_ne kind (by rintro ⟨⟩ <;> nofun), askers_append, askers_append,
      Expr.askers_tokens h inner, askers_tokens h branch, askers_tokens h other, asking,
      List.append_assoc]

theorem Stmt.askers_tokensAll (h : deed ≠ .assigning) : ∀ {body : List Stmt},
    WellFormedAll body → deed.askers (tokensAll body) = askingAll deed body
  | [], _ => by
    rw [tokensAll, askingAll]
    rfl
  | stmt :: rest, formed => by
    rw [WellFormedAll] at formed
    rw [tokensAll, askers_append, askers_tokens h formed.1, askers_tokensAll h formed.2, askingAll]

end

/-- Whether the expression gives a variable a value. -/
def Expr.isAssign : Expr → Bool
  | .assign _ _ => true
  | _ => false

/-- The names that ask for values are those of the assignments in the expression. -/
theorem Expr.asking_assigning_perm : ∀ e : Expr,
    (e.asking .assigning).Perm ((e.nodes.filter isAssign).map token)
  | .assign name value =>
    (List.perm_append_singleton name _).trans (value.asking_assigning_perm.cons name)
  | .binary left op right => by
    rw [nodes, List.filter_cons_of_neg Bool.false_ne_true, List.filter_append, List.map_append]
    exact left.asking_assigning_perm.append right.asking_assigning_perm
  | .input _ => .nil
  | .literal _ _ => .nil
  | .print _ value => value.asking_assigning_perm
  | .unary _ operand => operand.asking_assigning_perm
  | .var _ => .nil

mutual

theorem Stmt.asking_assigning_perm : ∀ stmt : Stmt,
    (stmt.asking .assigning).Perm ((stmt.nodes.filter Expr.isAssign).map Expr.token)
  | .block _ body => by
    rw [asking, nodes]
    exact askingAll_assigning_perm body
  | .expression e => by
    rw [asking, nodes]
    exact e.asking_assigning_perm
  | .halt _ => by
    rw [asking, nodes]
    exact .nil
  | .ifThen _ condition thenBranch => by
    rw [asking, nodes, List.filter_append, List.map_append]
    exact condition.asking_assigning_perm.append (asking_assigning_perm thenBranch)
  | .ifElse _ condition thenBranch elseBranch => by
    rw [asking, nodes, List.filter_append, List.filter_append, List.map_append, List.map_append]
    exact condition.asking_assigning_perm.append
      ((asking_assigning_perm thenBranch).append (asking_assigning_perm elseBranch))

theorem Stmt.askingAll_assigning_perm : ∀ body : List Stmt,
    (askingAll .assigning body).Perm (((nodesAll body).filter Expr.isAssign).map Expr.token)
  | [] => by
    rw [askingAll, nodesAll]
    exact .nil
  | stmt :: rest => by
    rw [askingAll, nodesAll, List.filter_append, List.map_append]
    exact (asking_assigning_perm stmt).append (askingAll_assigning_perm rest)

end

/-- The token passes nothing over: it is neither `if` nor `halt`. -/
def Token.IsStraight (t : Token) : Prop :=
  t.kind ≠ .ifWord ∧ t.kind ≠ .haltWord

mutual

/-- A statement without `if` and `halt` among its tokens is straight. -/
theorem Stmt.isStraight : ∀ {stmt : Stmt}, stmt.WellFormed →
    (∀ t ∈ stmt.tokens, t.IsStraight) → stmt.IsStraight
  | .block brace body, formed, straight => by
    rw [WellFormed] at formed
    rw [tokens] at straight
    rw [IsStraight]
    exact areStraight formed.2 (List.forall_mem_cons.mp straight).2
  | .expression e, _, _ => by
    rw [IsStraight]
    trivial
  | .halt keyword, formed, straight => by
    rw [WellFormed] at formed
    rw [tokens] at straight
    exact absurd formed (List.forall_mem_cons.mp straight).1.2
  | .ifThen keyword condition thenBranch, formed, straight => by
    rw [WellFormed] at formed
    rw [tokens] at straight
    exact absurd formed.1 (List.forall_mem_cons.mp straight).1.1
  | .ifElse keyword condition thenBranch elseBranch, formed, straight => by
    rw [WellFormed] at formed
    rw [tokens] at straight
    exact absurd formed.1 (List.forall_mem_cons.mp straight).1.1

theorem Stmt.areStraight : ∀ {body : List Stmt}, WellFormedAll body →
    (∀ t ∈ tokensAll body, t.IsStraight) → AreStraight body
  | [], _, _ => by
    rw [AreStraight]
    trivial
  | stmt :: rest, formed, straight => by
    rw [WellFormedAll] at formed
    rw [tokensAll] at straight
    obtain ⟨first, others⟩ := List.forall_mem_append.mp straight
    rw [AreStraight]
    exact ⟨isStraight formed.1 first, areStraight formed.2 others⟩

end

end Trees

/-! ## Places -/

/-- As many places of a list hold such entries as it has such entries. -/
theorem card_filter_getElem {α : Type} (p : α → Bool) (l : List α) :
    (Finset.univ.filter fun j : Fin l.length => p l[j]).card = l.countP p := by
  induction l with
  | nil => rfl
  | cons t rest ih =>
    refine (Fin.card_filter_univ_succ' fun j => p (t :: rest)[j] = true).trans ?_
    rw [List.countP_cons, ← ih, Nat.add_comm]
    rfl

namespace Deed

variable {deed : Deed} {tokens asked : List Token} {n : Nat}

/-- Tokens that ask, some of them and in their order, stand further and further on in the text. -/
theorem exists_places (h : asked.Sublist (deed.askers tokens)) (length : n = asked.length) :
    ∃ place : Fin n ↪o Fin tokens.length,
      ∀ i, tokens[place i].kind = deed.kind ∧ asked[i.val]? = some tokens[place i] := by
  subst length
  have whole := h.trans List.filter_sublist
  obtain ⟨place, same⟩ := List.sublist_iff_exists_fin_orderEmbedding_get_eq.mp whole
  refine ⟨place, fun i => ?_⟩
  have here : asked[i] = tokens[place i] := same i
  have kind := (List.mem_filter.mp (h.subset (List.getElem_mem i.isLt))).2
  exact ⟨here ▸ of_decide_eq_true kind, List.getElem?_eq_some_iff.mpr ⟨i.isLt, here⟩⟩

/-- If as many tokens are placed as there are, none is left out. -/
theorem existsUnique_place (length : n = (deed.askers tokens).length)
    {place : Fin n ↪o Fin tokens.length} (h : ∀ i, tokens[place i].kind = deed.kind)
    {j : Fin tokens.length} (kind : tokens[j].kind = deed.kind) : ∃! i, place i = j := by
  let places : Finset (Fin tokens.length) := Finset.univ.map place.toEmbedding
  let there := Finset.univ.filter fun j : Fin tokens.length =>
    decide (tokens[j].kind = deed.kind) = true
  have subset : places ⊆ there := by
    intro j mem
    obtain ⟨i, _, rfl⟩ := Finset.mem_map.mp mem
    exact Finset.mem_filter.mpr ⟨Finset.mem_univ _, decide_eq_true (h i)⟩
  have card : there.card ≤ places.card := by
    have count := card_filter_getElem (fun t : Token => decide (t.kind = deed.kind)) tokens
    rw [List.countP_eq_length_filter] at count
    rw [Finset.card_map, Finset.card_univ, Fintype.card_fin, length]
    exact count.le
  have mem : j ∈ there := Finset.mem_filter.mpr ⟨Finset.mem_univ _, decide_eq_true kind⟩
  rw [← Finset.eq_of_subset_of_card_le subset card] at mem
  obtain ⟨i, _, here⟩ := Finset.mem_map.mp mem
  exact ⟨i, here, fun i' here' => place.injective (here'.trans here.symm)⟩

end Deed

/-- Every line is taken by a token that is obeyed. -/
theorem Action.map_taker_takes (actions : List Action) (s : Session) :
    (takes actions s).map Take.taker = (Deed.reading.obeyed actions).map Taker.input := by
  induction actions generalizing s with
  | nil => rfl
  | cons action rest ih =>
    rw [takes, List.map_append, ih, ← List.singleton_append (l := rest), obeyed_append,
      List.map_append]
    cases action <;> rfl

/-- The line that obeys an `input` is taken by it. -/
theorem Action.taker_takes {actions : List Action} {s : Session}
    {i : Fin (takes actions s).length} {t : Token}
    (h : (Deed.reading.obeyed actions)[i.val]? = some t) :
    (takes actions s)[i].taker = .input t := by
  have takers := congrArg (·[i.val]?) (map_taker_takes actions s)
  simp only [List.getElem?_map, h, List.getElem?_eq_getElem i.isLt] at takers
  exact Option.some.inj takers

/-- An action that prints is a line of the `print` that asked for it. -/
theorem Action.exists_eq_print {action : Action} (h : action.deed? = some .printing) :
    ∃ x, action = .print action.token x := by
  cases action with
  | print keyword x => exact ⟨x, rfl⟩
  | assign _ _ => cases h
  | prompt _ _ => cases h
  | read _ => cases h

/-- Every value is written by a token that is obeyed. -/
theorem Action.exists_print {actions : List Action}
    {i : Fin (Deed.printing.done actions).length} {t : Token}
    (h : (Deed.printing.obeyed actions)[i.val]? = some t) :
    ∃ x, (Deed.printing.done actions)[i] = .print t x := by
  rw [Deed.obeyed, List.getElem?_map, List.getElem?_eq_getElem i.isLt] at h
  obtain rfl := Option.some.inj h
  exact exists_eq_print (of_decide_eq_true (List.mem_filter.mp (List.getElem_mem i.isLt)).2)

/-! ## Programs -/

namespace Program

variable {tokens : List Token} {p : Program} {s : Session}

/-- The tokens of a program that ask for a deed are those of the text that have the kind for it. -/
theorem askingAll_of_ofTokens (deed : Deed) (h : deed ≠ .assigning)
    (made : ofTokens tokens = .ok p) : Stmt.askingAll deed p.body = deed.askers tokens := by
  rw [← Stmt.askers_tokensAll h (wellFormed_of_ofTokens made), ← deed.askers_kept tokens,
    ← tokens_of_ofTokens made]
  rfl

/-- Where nothing is passed over, all tokens that ask are obeyed. -/
theorem obeyed_of_run (deed : Deed) (made : ofTokens tokens = .ok p) (sound : s.writer.NeverFails)
    (straight : ∀ t ∈ tokens, t.IsStraight) {u : Session}
    (completed : p.run s = .ok .completed u) :
    deed.obeyed (p.trace s) = Stmt.askingAll deed p.body := by
  have straight' : Stmt.AreStraight p.body := by
    refine Stmt.areStraight (wellFormed_of_ofTokens made) fun t mem => straight t ?_
    have mem : t ∈ p.tokens := mem
    rw [tokens_of_ofTokens made] at mem
    exact Token.mem_of_mem_kept mem
  rw [p.run_eq_execAll sound.2] at completed
  exact Stmt.obeyed_of_execAll deed straight' completed

/-- Where the writer does not fail, a run ends where its actions lead. -/
theorem after_run (p : Program) (sound : s.writer.NeverFails) :
    p.run.after s = Action.afterAll (p.trace s) s := by
  rw [after, p.run_eq_execAll sound.2]
  exact (Stmt.does_execAll p.body).after_eq s

/-- Where the writer does not fail, the outputs of the actions are written. -/
theorem written_after_run (p : Program) (sound : s.writer.NeverFails) :
    (p.run.after s).writer.written =
      s.writer.written ++ (p.trace s).flatMap Action.output :=
  p.written_of_hasRoom (sound.hasRoom _)

/-- The tokens that are obeyed stand in this order among those that ask. -/
theorem obeyed_sublist (deed : Deed) (h : deed ≠ .assigning) (made : ofTokens tokens = .ok p)
    (s : Session) : (deed.obeyed (p.trace s)).Sublist (deed.askers tokens) := by
  rw [← askingAll_of_ofTokens deed h made]
  exact Stmt.obeyed_sublist_all deed p.body s

/-- Each token of a program is obeyed at most once, and in the order of the text.  A run does the
    actions of its trace and nothing else.  The lines that `input`s take are those that are read,
    each by an `input` that stands behind the one before; and what is written are prompts and the
    lines of `print`s, each by a `print` that stands behind the one before.  So no more lines are
    read than there are `input`s in the text, and no more values are written than there are
    `print`s.  Without `if` and `halt`, a program that is completed has obeyed every `input` and
    every `print` exactly once, and has made each of its assignments once. -/
theorem obeyed_in_order (made : ofTokens tokens = .ok p) (sound : s.writer.NeverFails) :
    p.run.after s = Action.afterAll (p.trace s) s ∧
    s.reader.Gives (p.takes s) (p.run.after s).reader ∧
    (p.run.after s).writer.written = s.writer.written ++ (p.trace s).flatMap Action.output ∧
    ∃ (inputs : Fin (p.takes s).length ↪o Fin tokens.length)
      (prints : Fin (Deed.printing.done (p.trace s)).length ↪o Fin tokens.length),
      (∀ i, tokens[inputs i].kind = .inputWord ∧
        (p.takes s)[i].taker = .input tokens[inputs i]) ∧
      (∀ i, tokens[prints i].kind = .printWord ∧
        ∃ x, (Deed.printing.done (p.trace s))[i] = .print tokens[prints i] x) ∧
      (p.takes s).length ≤ tokens.countP (fun t => t.kind = .inputWord) ∧
      (Deed.printing.done (p.trace s)).length ≤ tokens.countP (fun t => t.kind = .printWord) ∧
      ((∀ t ∈ tokens, t.IsStraight) → ∀ u, p.run s = .ok .completed u →
        (∀ j : Fin tokens.length, tokens[j].kind = .inputWord → ∃! i, inputs i = j) ∧
        (∀ j : Fin tokens.length, tokens[j].kind = .printWord → ∃! i, prints i = j) ∧
        (Deed.assigning.obeyed (p.trace s)).Perm
          ((p.nodes.filter Expr.isAssign).map Expr.token)) := by
  have takers := Action.map_taker_takes (p.trace s) s
  have taken : (p.takes s).length = (Deed.reading.obeyed (p.trace s)).length := by
    have lengths := congrArg List.length takers
    rwa [List.length_map, List.length_map] at lengths
  have written : (Deed.printing.done (p.trace s)).length =
      (Deed.printing.obeyed (p.trace s)).length := (List.length_map _).symm
  have inOrder := obeyed_sublist .reading nofun made s
  have inOrder' := obeyed_sublist .printing nofun made s
  obtain ⟨inputs, read⟩ := exists_places inOrder taken
  obtain ⟨prints, printed⟩ := exists_places inOrder' written
  refine ⟨p.after_run sound, p.gives_takes s, p.written_after_run sound, inputs, prints, ?_, ?_,
    ?_, ?_, ?_⟩
  · intro i
    exact ⟨(read i).1, Action.taker_takes (read i).2⟩
  · intro i
    exact ⟨(printed i).1, Action.exists_print (printed i).2⟩
  · rw [taken, List.countP_eq_length_filter]
    exact inOrder.length_le
  · rw [written, List.countP_eq_length_filter]
    exact inOrder'.length_le
  · intro straight u completed
    have whole (deed : Deed) := obeyed_of_run deed made sound straight completed
    rw [whole, askingAll_of_ofTokens .reading nofun made] at taken
    rw [whole, askingAll_of_ofTokens .printing nofun made] at written
    refine ⟨fun j => existsUnique_place taken fun i => (read i).1,
      fun j => existsUnique_place written fun i => (printed i).1, ?_⟩
    rw [whole]
    exact Stmt.askingAll_assigning_perm p.body

/-- Of `x = y = input print x + input` every token is obeyed: two of three lines are read, the sum
    of their numbers is written, and each of the two assignments is made. -/
theorem obeyed_in_order_of_sum :
    let x : Token := ⟨.identifier, "x", 1⟩
    let y : Token := ⟨.identifier, "y", 1⟩
    let keyword : Token := ⟨.inputWord, "input", 1⟩
    let tokens : List Token := [x, ⟨.equal, "=", 1⟩, y, ⟨.equal, "=", 1⟩, keyword,
      ⟨.printWord, "print", 2⟩, x, ⟨.plus, "+", 2⟩, keyword]
    let p : Program := ⟨[.expression (.assign x (.assign y (.input keyword))),
      .expression (.print ⟨.printWord, "print", 2⟩
        (.binary (.var x) ⟨.plus, "+", 2⟩ (.input keyword)))]⟩
    let s : Session := { reader := ⟨Text.encode "1\n2\n3\n", none⟩ }
    (ofTokens tokens = .ok p ∧ s.writer.NeverFails) ∧ (p.takes s).length = 2 ∧
      (p.run.after s).writer.written = Text.encode "3\n" ∧
      ∃ inputs : Fin (p.takes s).length ↪o Fin tokens.length,
        (∀ i : Fin (p.takes s).length, (p.takes s)[i].taker = .input tokens[inputs i]) ∧
        (∀ j : Fin tokens.length, tokens[j].kind = .inputWord → ∃! i, inputs i = j) ∧
        (Deed.assigning.obeyed (p.trace s)).Perm [x, y] := by
  intro x y keyword tokens p s
  have made : ofTokens tokens = .ok p := rfl
  have sound : s.writer.NeverFails := ⟨rfl, rfl⟩
  have completed : ∃ u, p.run s = .ok .completed u := by
    have ended : p.run.run' s = some .completed := by decide +kernel
    unfold EStateM.run' at ended
    split at ended
    · cases ended
      exact ⟨_, ‹_›⟩
    · cases ended
  obtain ⟨u, completed⟩ := completed
  have straight : ∀ t ∈ tokens, t.IsStraight := by
    simp only [tokens, List.forall_mem_cons, Token.IsStraight]
    decide
  obtain ⟨_, _, _, inputs, _, read, _, _, _, all⟩ := obeyed_in_order made sound
  obtain ⟨each, _, made_once⟩ := all straight u completed
  refine ⟨⟨made, sound⟩, ?_, ?_, inputs, fun i => (read i).2, each, made_once⟩
  · decide +kernel
  · decide +kernel

end Program

end NumScript
