/-
  What can be told from the outline of a program.

  An outline does not show on which lines the tokens of a program stand, nor how its numbers are
  spelled.  Everything else can be read back from it: two programs that are read from texts have the
  same outline just if they are the same when lines and the spelling of numbers are forgotten
  (`Program.outline_eq_iff`).  The condition is that no number is infinite, since infinity is
  written like the name `inf`.

  A tree is written as a form (`Expr.form`, `Stmt.form`), and forms are read in one way only
  (`Form.eq_of_text_eq`).  So what is left is to read the tree back from its form (`Form.expr?`,
  `Form.stmt?`).  What a word or the head of a group stands for is what it spells in the lexicon,
  with three exceptions: `block`, `program` and `if` are heads of no expression, and the first two
  spell names.  Names are never heads; that keeps them apart.
-/
import NumScript.Proofs.Forms
import NumScript.Proofs.KeptTokens
import NumScript.Proofs.Places
import NumScript.Proofs.ReadBack
import NumScript.Proofs.Relabelling
import NumScript.Proofs.Rendering

namespace NumScript

/-! ## Bare tokens -/

/-- The token without its line, and a number without its spelling. -/
def Token.bare (t : Token) : Token :=
  match t.kind with
  | .number _ => ⟨t.kind, "", 0⟩
  | _ => ⟨t.kind, t.lexeme, 0⟩

/-- The program without lines and without the spelling of its numbers. -/
def Program.bare (p : Program) : Program :=
  p.map Token.bare

/-- The token spells its kind, and so does the text of its value if it is a number. -/
structure Token.Legible (t : Token) : Prop where
  spelled : Lexicon.kind? t.lexeme = some t.kind
  readBack : ∀ value, t.kind = .number value →
    Lexicon.kind? (Numeral.write value) = some (.number value)

namespace Token

/-- Bare, a token that is no number keeps its lexeme. -/
theorem bare_of_kind {t : Token} {k : TokenKind} (kind : t.kind = k)
    (noNumber : k.isNumber = false) : t.bare = ⟨k, t.lexeme, 0⟩ := by
  unfold bare
  split
  · rename_i value number
    rw [← kind, number] at noNumber
    cases noNumber
  · rw [kind]

theorem lexeme_bare {t : Token} {k : TokenKind} (kind : t.kind = k)
    (noNumber : k.isNumber = false) : t.bare.lexeme = t.lexeme := by
  rw [bare_of_kind kind noNumber]

/-- Bare, a number keeps its value only. -/
theorem bare_of_number {t : Token} {value : Float} (kind : t.kind = .number value) :
    t.bare = ⟨.number value, "", 0⟩ := by
  rw [bare, kind]

end Token

/-! ## Words and parentheses -/

/-- A parenthesis. -/
def TokenKind.isParen : TokenKind → Bool
  | .leftParen | .rightParen => true
  | _ => false

/-- No operator between operands is a number or a parenthesis. -/
theorem of_mem_binaryOperators {k : TokenKind} (h : k ∈ binaryOperators) :
    k.isNumber = false ∧ k.isParen = false := by
  rcases mem_binaryOperators_iff.mp h with rfl | rfl | rfl | rfl | rfl <;> exact ⟨rfl, rfl⟩

namespace Lexicon

/-- No two signs or keywords are of one kind. -/
theorem fst_eq_of_snd_eq : ∀ entry ∈ signs ++ keywords, ∀ entry' ∈ signs ++ keywords,
    entry.2 = entry'.2 → entry.1 = entry'.1 := by
  decide

/-- What spells a sign or a keyword is the one text that it is written as. -/
theorem eq_of_kind? {lexeme text : String} {k : TokenKind} (h : kind? lexeme = some k)
    (entry : (text, k) ∈ signs ++ keywords) : lexeme = text := by
  have fixed : ∀ entry ∈ signs ++ keywords,
      entry.2 ≠ .identifier ∧ ∀ value, entry.2 ≠ .number value := by
    simp only [signs, keywords, List.cons_append, List.nil_append, List.forall_mem_cons]
    simp
  unfold kind? at h
  split at h
  · rename_i kind found
    obtain ⟨before, after, split, _⟩ := List.lookup_eq_some_iff.mp found
    have listed : (lexeme, kind) ∈ signs ++ keywords := by
      rw [split]
      exact List.mem_append_right before List.mem_cons_self
    cases h
    exact fst_eq_of_snd_eq _ listed _ entry rfl
  · split at h
    · cases h
      exact absurd rfl (fixed _ entry).1
    · split at h
      · obtain ⟨value, _, rfl⟩ := Option.map_eq_some_iff.mp h
        exact absurd rfl ((fixed _ entry).2 value)
      · cases h

/-- Letters and digits are no delimiters. -/
theorem isDelimiter_of_isAlphanum {c : Char} (h : c.isAlphanum = true) :
    Form.isDelimiter c = false := by
  rw [Bool.eq_false_iff]
  intro delimiter
  simp only [Form.isDelimiter, Bool.or_eq_true, decide_eq_true_eq, or_assoc] at delimiter
  rcases delimiter with rfl | rfl | rfl <;> cases h

/-- What spells a token that is no parenthesis is a word. -/
theorem isWord_of_kind? {lexeme : String} {k : TokenKind} (h : kind? lexeme = some k)
    (noParen : k.isParen = false) : Form.IsWord lexeme := by
  have digit {c : Char} (h : c.isDigit = true) : Form.isDelimiter c = false :=
    isDelimiter_of_isAlphanum (by rw [Char.isAlphanum, h, Bool.or_true])
  rcases shape_of_kind? h with name | numeral | ⟨c, kind, rfl, sign⟩ | rfl | rfl
  · obtain ⟨c, rest, text, letter, others⟩ := exists_of_isName name
    refine ⟨by rw [text]; exact List.cons_ne_nil c rest, ?_⟩
    rw [text, List.forall_mem_cons]
    exact ⟨isDelimiter_of_isAlphanum (by rw [Char.isAlphanum, letter, Bool.true_or]),
      fun d mem => isDelimiter_of_isAlphanum (others d mem)⟩
  · obtain ⟨whole, fraction, text, whole_ne, digits, digits'⟩ := exists_of_isNumeral numeral
    obtain ⟨c, rest, nonempty, _⟩ := exists_text fraction whole_ne digits
    refine ⟨by rw [← text, nonempty]; exact List.cons_ne_nil c rest, ?_⟩
    rw [← text]
    cases fraction with
    | nil => exact fun d mem => digit (digits d mem)
    | cons d more =>
      refine List.forall_mem_append.mpr ⟨fun d mem => digit (digits d mem), ?_⟩
      exact List.forall_mem_cons.mpr ⟨rfl, fun d mem => digit (digits' d mem)⟩
  · rw [kind?_sign sign] at h
    obtain rfl := Option.some.inj h
    refine ⟨by rw [String.toList_ofList]; exact List.cons_ne_nil c [], ?_⟩
    rw [String.toList_ofList, List.forall_mem_singleton, Bool.eq_false_iff]
    intro delimiter
    simp only [Form.isDelimiter, Bool.or_eq_true, decide_eq_true_eq, or_assoc] at delimiter
    rcases delimiter with rfl | rfl | rfl
    · cases sign
    · cases sign
      cases noParen
    · cases sign
      cases noParen
  · exact ⟨List.cons_ne_nil _ _, List.forall_mem_singleton.mpr rfl⟩
  · exact ⟨List.cons_ne_nil _ _,
      List.forall_mem_cons.mpr ⟨rfl, List.forall_mem_singleton.mpr rfl⟩⟩

end Lexicon

/-! ## Trees as forms -/

/-- The form of an expression. -/
def Expr.form : Expr → Form
  | .assign name value => .group "=" [.word name.lexeme, value.form]
  | .binary left op right => .group op.lexeme [left.form, right.form]
  | .input _ => .word "input"
  | .literal _ value => .word (Numeral.write value)
  | .print _ value => .group "print" [value.form]
  | .unary op operand => .group op.lexeme [operand.form]
  | .var name => .word name.lexeme

mutual

/-- The form of a statement. -/
def Stmt.form : Stmt → Form
  | .block _ body => .group "block" (formAll body)
  | .expression e => e.form
  | .halt _ => .word "halt"
  | .ifThen _ condition thenBranch => .group "if" [condition.form, thenBranch.form]
  | .ifElse _ condition thenBranch elseBranch =>
    .group "if" [condition.form, thenBranch.form, elseBranch.form]

/-- The forms of some statements. -/
def Stmt.formAll : List Stmt → List Form
  | [] => []
  | s :: rest => s.form :: formAll rest

end

/-- The form of a program. -/
def Program.form (p : Program) : Form :=
  .group "program" (Stmt.formAll p.body)

/-- The text of the form of an expression is its outline. -/
theorem Expr.text_form : ∀ e : Expr, e.form.text = e.outline
  | .assign name value => by
    rw [form, outline, Form.text, Form.textAll, Form.textAll, Form.textAll, Form.text,
      text_form value]
  | .binary left op right => by
    rw [form, outline, Form.text, Form.textAll, Form.textAll, Form.textAll, text_form left,
      text_form right]
  | .print keyword value => by
    rw [form, outline, Form.text, Form.textAll, Form.textAll, text_form value]
  | .unary op operand => by
    rw [form, outline, Form.text, Form.textAll, Form.textAll, text_form operand]
  | .input _ | .literal .. | .var _ => rfl

mutual

/-- The text of the form of a statement is its outline. -/
theorem Stmt.text_form : ∀ s : Stmt, s.form.text = s.outline
  | .block _ body => by rw [form, outline, Form.text, textAll_formAll body]
  | .expression e => by rw [form, outline, e.text_form]
  | .halt _ => rfl
  | .ifThen _ condition s => by
    rw [form, outline, Form.text, Form.textAll, Form.textAll, Form.textAll, condition.text_form,
      text_form s]
  | .ifElse _ condition s t => by
    rw [form, outline, Form.text, Form.textAll, Form.textAll, Form.textAll, Form.textAll,
      condition.text_form, text_form s, text_form t]

theorem Stmt.textAll_formAll : ∀ body : List Stmt, Form.textAll (formAll body) = outlineAll body
  | [] => rfl
  | s :: rest => by rw [formAll, outlineAll, Form.textAll, text_form s, textAll_formAll rest]

end

/-- An outline is the text of a form. -/
theorem Program.text_form (p : Program) : p.form.text = p.outline := by
  rw [form, outline, Form.text, Stmt.textAll_formAll]

/-! ## Reading trees back -/

namespace Form

/-- The expression that a form is written for, with bare tokens. -/
def expr? : Form → Option Expr
  | word text =>
    match Lexicon.kind? text with
    | some (.number value) => some (.literal ⟨.number value, "", 0⟩ value)
    | some .inputWord => some (.input ⟨.inputWord, text, 0⟩)
    | some .identifier => some (.var ⟨.identifier, text, 0⟩)
    | _ => none
  | group head [part] => do
    let e ← part.expr?
    match Lexicon.kind? head with
    | some .printWord => some (.print ⟨.printWord, head, 0⟩ e)
    | some .bang => some (.unary ⟨.bang, head, 0⟩ e)
    | _ => none
  | group head [part, part'] => do
    let left ← part.expr?
    let right ← part'.expr?
    match Lexicon.kind? head, left with
    | some .equal, .var name => some (.assign name right)
    | some op, _ => if 0 < op.level then some (.binary left ⟨op, head, 0⟩ right) else none
    | _, _ => none
  | group _ _ => none

mutual

/-- The statement that a form is written for, with bare tokens. -/
def stmt? : Form → Option Stmt
  | word "halt" => some (.halt ⟨.haltWord, "halt", 0⟩)
  | group "block" parts => do
    let body ← stmts? parts
    some (.block ⟨.leftBrace, "\x7b", 0⟩ body)
  | group "if" [part, branch] => do
    let condition ← part.expr?
    let s ← branch.stmt?
    some (.ifThen ⟨.ifWord, "if", 0⟩ condition s)
  | group "if" [part, branch, branch'] => do
    let condition ← part.expr?
    let s ← branch.stmt?
    let t ← branch'.stmt?
    some (.ifElse ⟨.ifWord, "if", 0⟩ condition s t)
  | form => form.expr?.map .expression

/-- The statements that some forms are written for. -/
def stmts? : List Form → Option (List Stmt)
  | [] => some []
  | part :: rest => do
    let s ← part.stmt?
    let others ← stmts? rest
    some (s :: others)

end

/-- Names and `if` are not the heads of expressions. -/
theorem expr?_group {head : String} {k : TokenKind} (spelled : Lexicon.kind? head = some k)
    (h : k = .identifier ∨ k = .ifWord) (parts : List Form) : (group head parts).expr? = none := by
  rcases parts with _ | ⟨part, _ | ⟨part', _ | ⟨_, _⟩⟩⟩
  · rfl
  · rw [expr?, spelled]
    cases part.expr? with
    | none => rfl
    | some e => rcases h with rfl | rfl <;> rfl
  · rw [expr?, spelled]
    cases part.expr? with
    | none => rfl
    | some left =>
      cases part'.expr? with
      | none => rfl
      | some right => rcases h with rfl | rfl <;> rfl
  · rfl

/-- No expression is written like one of the other statements. -/
theorem stmt?_of_expr? {form : Form} {e : Expr} (h : form.expr? = some e) :
    form.stmt? = some (.expression e) := by
  unfold stmt?
  split
  · cases h
  · rw [expr?_group (k := .identifier) rfl (.inl rfl)] at h
    cases h
  · rw [expr?_group (k := .ifWord) rfl (.inr rfl)] at h
    cases h
  · rw [expr?_group (k := .ifWord) rfl (.inr rfl)] at h
    cases h
  · rw [h]
    rfl

end Form

/-! ## Forms of legible trees -/

section Legible

variable {t : Token}

/-- A sign or keyword is the one text that it is written as. -/
theorem Token.Legible.lexeme_eq (h : t.Legible) (text : String) {k : TokenKind} (kind : t.kind = k)
    (entry : (text, k) ∈ Lexicon.signs ++ Lexicon.keywords) : t.lexeme = text := by
  have spelled := h.spelled
  rw [kind] at spelled
  exact Lexicon.eq_of_kind? spelled entry

/-- A legible token that is no parenthesis is a word. -/
theorem Token.Legible.isWord (h : t.Legible) {k : TokenKind} (kind : t.kind = k)
    (noParen : k.isParen = false) : Form.IsWord t.lexeme := by
  have spelled := h.spelled
  rw [kind] at spelled
  exact Lexicon.isWord_of_kind? spelled noParen

/-- A legible name is the form of the variable. -/
theorem Token.Legible.expr?_name (h : t.Legible) (kind : t.kind = .identifier) :
    (Form.word t.lexeme).expr? = some (.var t.bare) := by
  rw [Form.expr?, h.spelled, kind, t.bare_of_kind kind rfl]

/-- The expression is read back from its form. -/
theorem Expr.expr?_form : ∀ {e : Expr}, e.WellFormed → (∀ t ∈ e.tokens, t.Legible) →
    e.form.expr? = some (e.map Token.bare)
  | .assign name value, ⟨kind, inner⟩, legible => by
    obtain ⟨first, others⟩ := List.forall_mem_cons.mp legible
    rw [form, Form.expr?, first.expr?_name kind, expr?_form inner others]
    rfl
  | .binary left op right, ⟨inner, kind, inner'⟩, legible => by
    obtain ⟨first, others⟩ := List.forall_mem_append.mp legible
    obtain ⟨here, second⟩ := List.forall_mem_cons.mp others
    rw [form, Form.expr?, expr?_form inner first, expr?_form inner' second, here.spelled]
    rcases mem_binaryOperators_iff.mp kind with kind | kind | kind | kind | kind <;>
      · rw [map, op.bare_of_kind kind rfl, kind]
        rfl
  | .input keyword, kind, legible => by
    obtain ⟨here, _⟩ := List.forall_mem_cons.mp legible
    have lexeme := here.lexeme_eq "input" kind (by decide)
    rw [map, keyword.bare_of_kind kind rfl, lexeme]
    rfl
  | .literal token value, kind, legible => by
    obtain ⟨here, _⟩ := List.forall_mem_cons.mp legible
    rw [form, Form.expr?, here.readBack value kind, map, token.bare_of_number kind]
  | .print keyword value, ⟨kind, inner⟩, legible => by
    obtain ⟨here, others⟩ := List.forall_mem_cons.mp legible
    have lexeme := here.lexeme_eq "print" kind (by decide)
    rw [form, Form.expr?, expr?_form inner others, map, keyword.bare_of_kind kind rfl, lexeme]
    rfl
  | .unary op operand, ⟨kind, inner⟩, legible => by
    obtain ⟨here, others⟩ := List.forall_mem_cons.mp legible
    rw [form, Form.expr?, expr?_form inner others, here.spelled, kind, map,
      op.bare_of_kind kind rfl]
    rfl
  | .var name, kind, legible => by
    obtain ⟨here, _⟩ := List.forall_mem_cons.mp legible
    exact here.expr?_name kind

mutual

/-- The statement is read back from its form. -/
theorem Stmt.stmt?_form : ∀ {s : Stmt}, s.WellFormed → (∀ t ∈ s.tokens, t.Legible) →
    s.form.stmt? = some (s.map Token.bare)
  | .block brace body, wellFormed, legible => by
    rw [WellFormed] at wellFormed
    rw [tokens] at legible
    obtain ⟨here, others⟩ := List.forall_mem_cons.mp legible
    have lexeme := here.lexeme_eq "\x7b" wellFormed.1 (by decide)
    rw [form, Form.stmt?, stmts?_formAll wellFormed.2 others, map,
      brace.bare_of_kind wellFormed.1 rfl, lexeme]
    rfl
  | .expression e, wellFormed, legible => by
    rw [WellFormed] at wellFormed
    rw [tokens] at legible
    rw [form, Form.stmt?_of_expr? (Expr.expr?_form wellFormed legible), map]
  | .halt keyword, kind, legible => by
    rw [WellFormed] at kind
    rw [tokens] at legible
    obtain ⟨here, _⟩ := List.forall_mem_cons.mp legible
    have lexeme := here.lexeme_eq "halt" kind (by decide)
    rw [map, keyword.bare_of_kind kind rfl, lexeme]
    rfl
  | .ifThen keyword condition s, wellFormed, legible => by
    rw [WellFormed] at wellFormed
    rw [tokens] at legible
    obtain ⟨kind, inner, branch⟩ := wellFormed
    obtain ⟨here, others⟩ := List.forall_mem_cons.mp legible
    obtain ⟨first, second⟩ := List.forall_mem_append.mp others
    have lexeme := here.lexeme_eq "if" kind (by decide)
    rw [form, Form.stmt?, Expr.expr?_form inner first, stmt?_form branch second, map,
      keyword.bare_of_kind kind rfl, lexeme]
    rfl
  | .ifElse keyword condition s t, wellFormed, legible => by
    rw [WellFormed] at wellFormed
    rw [tokens] at legible
    obtain ⟨kind, inner, branch, branch'⟩ := wellFormed
    obtain ⟨here, others⟩ := List.forall_mem_cons.mp legible
    obtain ⟨front, third⟩ := List.forall_mem_append.mp others
    obtain ⟨first, second⟩ := List.forall_mem_append.mp front
    have lexeme := here.lexeme_eq "if" kind (by decide)
    rw [form, Form.stmt?, Expr.expr?_form inner first, stmt?_form branch second,
      stmt?_form branch' third, map, keyword.bare_of_kind kind rfl, lexeme]
    rfl

/-- The statements that the forms of well-formed ones are written for are their bare ones. -/
theorem Stmt.stmts?_formAll : ∀ {body : List Stmt}, WellFormedAll body →
    (∀ t ∈ tokensAll body, t.Legible) → Form.stmts? (formAll body) = some (mapAll Token.bare body)
  | [], _, _ => rfl
  | s :: rest, wellFormed, legible => by
    rw [WellFormedAll] at wellFormed
    rw [tokensAll] at legible
    obtain ⟨first, others⟩ := List.forall_mem_append.mp legible
    rw [formAll, Form.stmts?, stmt?_form wellFormed.1 first, stmts?_formAll wellFormed.2 others,
      mapAll]
    rfl

end

/-! ### All words are words -/

/-- The form of a well-formed expression is legible if its tokens are. -/
theorem Expr.legible_form : ∀ {e : Expr}, e.WellFormed → (∀ t ∈ e.tokens, t.Legible) →
    e.form.Legible
  | .assign name value, ⟨kind, inner⟩, legible => by
    obtain ⟨here, others⟩ := List.forall_mem_cons.mp legible
    have head : Form.IsWord "=" := Lexicon.isWord_of_kind? (k := .equal) rfl rfl
    exact ⟨head, here.isWord kind rfl, legible_form inner others, trivial⟩
  | .binary left op right, ⟨inner, kind, inner'⟩, legible => by
    obtain ⟨first, others⟩ := List.forall_mem_append.mp legible
    obtain ⟨here, second⟩ := List.forall_mem_cons.mp others
    exact ⟨here.isWord rfl (of_mem_binaryOperators kind).2, legible_form inner first,
      legible_form inner' second, trivial⟩
  | .input keyword, _, _ => Lexicon.isWord_of_kind? (k := .inputWord) rfl rfl
  | .literal token value, kind, legible => by
    obtain ⟨here, _⟩ := List.forall_mem_cons.mp legible
    exact Lexicon.isWord_of_kind? (here.readBack value kind) rfl
  | .print keyword value, ⟨kind, inner⟩, legible => by
    obtain ⟨_, others⟩ := List.forall_mem_cons.mp legible
    have head : Form.IsWord "print" := Lexicon.isWord_of_kind? (k := .printWord) rfl rfl
    exact ⟨head, legible_form inner others, trivial⟩
  | .unary op operand, ⟨kind, inner⟩, legible => by
    obtain ⟨here, others⟩ := List.forall_mem_cons.mp legible
    exact ⟨here.isWord kind rfl, legible_form inner others, trivial⟩
  | .var name, kind, legible => by
    obtain ⟨here, _⟩ := List.forall_mem_cons.mp legible
    exact here.isWord kind rfl

mutual

/-- The form of a well-formed statement is legible if its tokens are. -/
theorem Stmt.legible_form : ∀ {s : Stmt}, s.WellFormed → (∀ t ∈ s.tokens, t.Legible) →
    s.form.Legible
  | .block brace body, wellFormed, legible => by
    rw [WellFormed] at wellFormed
    rw [tokens] at legible
    have head : Form.IsWord "block" := Lexicon.isWord_of_kind? (k := .identifier) rfl rfl
    rw [form, Form.Legible]
    exact ⟨head, legibleAll_formAll wellFormed.2 (List.forall_mem_cons.mp legible).2⟩
  | .expression e, wellFormed, legible => by
    rw [WellFormed] at wellFormed
    rw [tokens] at legible
    rw [form]
    exact Expr.legible_form wellFormed legible
  | .halt keyword, _, _ => Lexicon.isWord_of_kind? (k := .haltWord) rfl rfl
  | .ifThen keyword condition s, wellFormed, legible => by
    rw [WellFormed] at wellFormed
    rw [tokens] at legible
    obtain ⟨kind, inner, branch⟩ := wellFormed
    obtain ⟨_, others⟩ := List.forall_mem_cons.mp legible
    obtain ⟨first, second⟩ := List.forall_mem_append.mp others
    have head : Form.IsWord "if" := Lexicon.isWord_of_kind? (k := .ifWord) rfl rfl
    rw [form, Form.Legible]
    exact ⟨head, Expr.legible_form inner first, legible_form branch second, trivial⟩
  | .ifElse keyword condition s t, wellFormed, legible => by
    rw [WellFormed] at wellFormed
    rw [tokens] at legible
    obtain ⟨kind, inner, branch, branch'⟩ := wellFormed
    obtain ⟨_, others⟩ := List.forall_mem_cons.mp legible
    obtain ⟨front, third⟩ := List.forall_mem_append.mp others
    obtain ⟨first, second⟩ := List.forall_mem_append.mp front
    have head : Form.IsWord "if" := Lexicon.isWord_of_kind? (k := .ifWord) rfl rfl
    rw [form, Form.Legible]
    exact ⟨head, Expr.legible_form inner first, legible_form branch second,
      legible_form branch' third, trivial⟩

theorem Stmt.legibleAll_formAll : ∀ {body : List Stmt}, WellFormedAll body →
    (∀ t ∈ tokensAll body, t.Legible) → Form.LegibleAll (formAll body)
  | [], _, _ => trivial
  | s :: rest, wellFormed, legible => by
    rw [WellFormedAll] at wellFormed
    rw [tokensAll] at legible
    obtain ⟨first, others⟩ := List.forall_mem_append.mp legible
    rw [formAll, Form.LegibleAll]
    exact ⟨legible_form wellFormed.1 first, legibleAll_formAll wellFormed.2 others⟩

end

end Legible

/-! ## Forms of bare trees -/

/-- The form of an expression shows neither lines nor the spelling of numbers. -/
theorem Expr.form_bare : ∀ {e : Expr}, e.WellFormed → (e.map Token.bare).form = e.form
  | .assign name value, ⟨kind, inner⟩ => by
    rw [map, form, form, form_bare inner, name.lexeme_bare kind rfl]
  | .binary left op right, ⟨inner, kind, inner'⟩ => by
    rw [map, form, form, form_bare inner, form_bare inner',
      op.lexeme_bare rfl (of_mem_binaryOperators kind).1]
  | .print keyword value, ⟨_, inner⟩ => by rw [map, form, form, form_bare inner]
  | .unary op operand, ⟨kind, inner⟩ => by
    rw [map, form, form, form_bare inner, op.lexeme_bare kind rfl]
  | .var name, kind => by rw [map, form, form, name.lexeme_bare kind rfl]
  | .input _, _ | .literal .., _ => rfl

mutual

/-- Bare statements have the same form. -/
theorem Stmt.form_bare : ∀ {s : Stmt}, s.WellFormed → (s.map Token.bare).form = s.form
  | .block brace body, wellFormed => by
    rw [WellFormed] at wellFormed
    rw [map, form, form, formAll_bare wellFormed.2]
  | .expression e, wellFormed => by
    rw [WellFormed] at wellFormed
    rw [map, form, form, Expr.form_bare wellFormed]
  | .halt keyword, _ => rfl
  | .ifThen keyword condition s, wellFormed => by
    rw [WellFormed] at wellFormed
    obtain ⟨_, inner, branch⟩ := wellFormed
    rw [map, form, form, Expr.form_bare inner, form_bare branch]
  | .ifElse keyword condition s t, wellFormed => by
    rw [WellFormed] at wellFormed
    obtain ⟨_, inner, branch, branch'⟩ := wellFormed
    rw [map, form, form, Expr.form_bare inner, form_bare branch, form_bare branch']

theorem Stmt.formAll_bare : ∀ {body : List Stmt}, WellFormedAll body →
    formAll (mapAll Token.bare body) = formAll body
  | [], _ => rfl
  | s :: rest, wellFormed => by
    rw [WellFormedAll] at wellFormed
    rw [mapAll, formAll, formAll, form_bare wellFormed.1, formAll_bare wellFormed.2]

end

/-! ## Programs -/

/-- No number of the text is too large for a finite double. -/
def Source.NumbersAreFinite (source : String) : Prop :=
  ∀ t, .ok t ∈ Source.items source → t.kind ≠ .number (Magnitude.infinity.toFloat false)

namespace Program

/-- The tokens of a program that is read from a text without infinite numbers are legible. -/
theorem legible_of_ofSource {source : String} {p : Program} (read : ofSource source = .ok p)
    (finite : Source.NumbersAreFinite source) :
    p.WellFormed ∧ ∀ t ∈ p.tokens, t.Legible := by
  obtain ⟨tokens, cut, made⟩ := ofSource_eq_ok_iff.mp read
  refine ⟨wellFormed_of_ofTokens made, ?_⟩
  intro t mem
  rw [tokens_of_ofTokens made] at mem
  have inside := Token.mem_of_mem_kept mem
  have spelled := (Source.standsIn_of_tokens cut t inside).spelled
  refine ⟨spelled, ?_⟩
  intro value number
  rw [number] at spelled
  -- a number that is spelled by digits has no sign
  obtain ⟨whole, fraction, _, _, _, _, rfl⟩ := Lexicon.exists_of_kind?_number spelled
  refine Lexicon.kind?_write ?_
  intro infinite
  rw [Numeral.ofDigits, infinite] at number
  refine finite t ?_ number
  rw [show Source.items source = tokens.map .ok from Source.tokensOf_eq_ok_iff.mp cut]
  exact List.mem_map_of_mem inside

/-- Programs whose tokens are legible have the same outline just if they are the same without lines
    and spelling of numbers. -/
theorem outline_eq_iff_of_legible {p q : Program} (h : p.WellFormed ∧ ∀ t ∈ p.tokens, t.Legible)
    (h' : q.WellFormed ∧ ∀ t ∈ q.tokens, t.Legible) : p.outline = q.outline ↔ p.bare = q.bare := by
  have head : Form.IsWord "program" := Lexicon.isWord_of_kind? (k := .identifier) rfl rfl
  have readable {p : Program} (h : p.WellFormed ∧ ∀ t ∈ p.tokens, t.Legible) : p.form.Legible :=
    ⟨head, Stmt.legibleAll_formAll h.1 h.2⟩
  constructor
  · intro same
    rw [← text_form, ← text_form] at same
    have forms := Form.eq_of_text_eq (readable h) (readable h') same
    have bodies : Stmt.formAll p.body = Stmt.formAll q.body := (Form.group.inj forms).2
    have back := Stmt.stmts?_formAll h.1 h.2
    rw [bodies, Stmt.stmts?_formAll h'.1 h'.2] at back
    exact congrArg Program.mk (Option.some.inj back).symm
  · intro same
    have bodies : Stmt.formAll p.body = Stmt.formAll q.body := by
      rw [← Stmt.formAll_bare h.1, ← Stmt.formAll_bare h'.1]
      exact congrArg (fun p : Program => Stmt.formAll p.body) same
    rw [← text_form, ← text_form]
    exact congrArg (fun parts => (Form.group "program" parts).text) bodies

/-- An outline determines its program.  Of two programs that are read from texts without infinite
    numbers, the outlines are the same just if the trees are, when the lines of their tokens and the
    spelling of their numbers are forgotten. -/
theorem outline_eq_iff {a b : String} {p q : Program} (read : ofSource a = .ok p)
    (read' : ofSource b = .ok q) (finite : Source.NumbersAreFinite a)
    (finite' : Source.NumbersAreFinite b) : p.outline = q.outline ↔ p.bare = q.bare :=
  outline_eq_iff_of_legible (legible_of_ofSource read finite) (legible_of_ofSource read' finite')

-- Infinity has the outline of a name, so the numbers have to be finite.
example : (Expr.literal ⟨.number (Magnitude.infinity.toFloat false), "9", 1⟩
      (Magnitude.infinity.toFloat false)).outline =
    (Expr.var ⟨.identifier, "inf", 1⟩).outline := by
  rfl

/-- Two texts of one program, which differ in their lines, a parenthesis and a zero. -/
theorem outline_eq_of_spelling : ∃ p q, ofSource "x = 1.50\nprint x" = .ok p ∧
    ofSource "x=1.5 print(x)" = .ok q ∧ p.outline = q.outline := by
  have finite (tokens : List Token) (fraction : List Char) {source : String}
      (items : Source.items source = tokens.map .ok)
      (small : (Decimal.ofDigits ['1'] fraction 0).nearest ≠ .infinity)
      (kinds : ∀ t ∈ tokens, (∀ value, t.kind ≠ .number value) ∨
        t.kind = .number (Numeral.ofDigits ['1'] fraction)) : Source.NumbersAreFinite source := by
    intro t mem infinite
    rw [items] at mem
    obtain ⟨_, mem, ⟨⟩⟩ := List.mem_map.mp mem
    rcases kinds t mem with noNumber | number
    · exact noNumber _ infinite
    · have parts := Magnitude.ofFloat?_toFloat false Magnitude.infinity
      rw [← TokenKind.number.inj (number.symm.trans infinite), Numeral.ofDigits,
        Magnitude.ofFloat?_toFloat] at parts
      exact small (Prod.mk.inj (Option.some.inj parts)).2
  have value : Numeral.ofDigits ['1'] ['5', '0'] = Numeral.ofDigits ['1'] ['5'] :=
    congrArg (Magnitude.toFloat false) (by decide +kernel)
  let program (line : Nat) (fraction : List Char) (lexeme : String) : Program :=
    ⟨[.expression (.assign ⟨.identifier, "x", 1⟩
        (.literal ⟨.number (Numeral.ofDigits ['1'] fraction), lexeme, 1⟩
          (Numeral.ofDigits ['1'] fraction))),
      .expression (.print ⟨.printWord, "print", line⟩ (.var ⟨.identifier, "x", line⟩))]⟩
  have read : ofSource "x = 1.50\nprint x" = .ok (program 2 ['5', '0'] "1.50") := rfl
  have read' : ofSource "x=1.5 print(x)" = .ok (program 1 ['5'] "1.5") := rfl
  refine ⟨_, _, read, read', (outline_eq_iff read read' ?_ ?_).mpr ?_⟩
  · refine finite [⟨.identifier, "x", 1⟩, ⟨.equal, "=", 1⟩,
      ⟨.number (Numeral.ofDigits ['1'] ['5', '0']), "1.50", 1⟩, ⟨.printWord, "print", 2⟩,
      ⟨.identifier, "x", 2⟩] ['5', '0'] rfl (by decide +kernel) ?_
    simp
  · refine finite [⟨.identifier, "x", 1⟩, ⟨.equal, "=", 1⟩,
      ⟨.number (Numeral.ofDigits ['1'] ['5']), "1.5", 1⟩, ⟨.printWord, "print", 1⟩,
      ⟨.leftParen, "(", 1⟩, ⟨.identifier, "x", 1⟩, ⟨.rightParen, ")", 1⟩] ['5'] rfl
      (by decide +kernel) ?_
    simp
  · show (program 2 ['5', '0'] "1.50").bare = (program 1 ['5'] "1.5").bare
    unfold program
    rw [value]
    rfl

end Program

end NumScript
