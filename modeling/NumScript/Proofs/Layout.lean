/-
  The layout of a text.

  Two texts whose tokens have the same kinds and lexemes differ at most in the lines that these
  stand on.  Then they are both programs or both none, the programs are the same but for lines, and
  they run alike from every session; and where they fail, they fail with the same error, placed
  on the lines of tokens at the same index (`Program.layout_irrelevant`).

  Both lists of tokens are one list, `Token.placed`, moved to other lines: in it every token stands
  on the line of its own index.  Reading and running commute with such a move
  (`Relabelling.ofTokens_map`, `Program.run_reline`), so all that is left to see is that the error
  of the one list is on the line of one of its tokens.

  That an error names no other line needs no second look at how programs are read and run.  If it
  did, that line alone could be moved: no token would change, and so neither would the error
  (`Error.exists_line`).
-/
import NumScript.Proofs.KeptTokens
import NumScript.Proofs.Sequencing

namespace NumScript

/-! ## Trees whose tokens stay as they are -/

section Fixed

variable {f : Token → Token}

/-- An expression stays the same where none of its tokens changes. -/
theorem Expr.map_eq_self : ∀ {e : Expr}, (∀ t ∈ e.tokens, f t = t) → e.map f = e
  | .assign name value, h => by
    obtain ⟨here, inside⟩ := List.forall_mem_cons.mp h
    rw [map, here, map_eq_self inside]
  | .binary left op right, h => by
    obtain ⟨before, behind⟩ := List.forall_mem_append.mp h
    obtain ⟨here, after⟩ := List.forall_mem_cons.mp behind
    rw [map, map_eq_self before, here, map_eq_self after]
  | .input keyword, h => by rw [map, h keyword List.mem_cons_self]
  | .literal token value, h => by rw [map, h token List.mem_cons_self]
  | .print keyword value, h => by
    obtain ⟨here, inside⟩ := List.forall_mem_cons.mp h
    rw [map, here, map_eq_self inside]
  | .unary op operand, h => by
    obtain ⟨here, inside⟩ := List.forall_mem_cons.mp h
    rw [map, here, map_eq_self inside]
  | .var name, h => by rw [map, h name List.mem_cons_self]

mutual

/-- A statement stays the same where none of its tokens changes. -/
theorem Stmt.map_eq_self : ∀ {s : Stmt}, (∀ t ∈ s.tokens, f t = t) → s.map f = s
  | .block brace body, h => by
    obtain ⟨here, inside⟩ := List.forall_mem_cons.mp h
    rw [map, here, mapAll_eq_self inside]
  | .expression e, h => by rw [map, Expr.map_eq_self h]
  | .halt keyword, h => by rw [map, h keyword List.mem_cons_self]
  | .ifThen keyword condition thenBranch, h => by
    obtain ⟨here, parts⟩ := List.forall_mem_cons.mp h
    obtain ⟨tested, taken⟩ := List.forall_mem_append.mp parts
    rw [map, here, Expr.map_eq_self tested, map_eq_self taken]
  | .ifElse keyword condition thenBranch elseBranch, h => by
    obtain ⟨here, parts⟩ := List.forall_mem_cons.mp h
    obtain ⟨first, second⟩ := List.forall_mem_append.mp parts
    obtain ⟨tested, taken⟩ := List.forall_mem_append.mp first
    rw [map, here, Expr.map_eq_self tested, map_eq_self taken, map_eq_self second]

theorem Stmt.mapAll_eq_self : ∀ {body : List Stmt}, (∀ t ∈ tokensAll body, f t = t) →
    mapAll f body = body
  | [], _ => rfl
  | s :: rest, h => by
    obtain ⟨first, others⟩ := List.forall_mem_append.mp h
    rw [mapAll, map_eq_self first, mapAll_eq_self others]

end

end Fixed

theorem Token.reline_eq_self {line : Nat → Nat} {t : Token} (h : line t.line = t.line) :
    t.reline line = t := by
  rw [reline, h]

/-- A program of which no token is moved is the same program. -/
theorem Program.reline_eq_self {p : Program} {line : Nat → Nat}
    (h : ∀ t ∈ p.tokens, line t.line = t.line) : p.reline line = p :=
  congrArg Program.mk (Stmt.mapAll_eq_self fun t mem => Token.reline_eq_self (h t mem))

/-! ## The lines that errors name -/

/-- An error that is moved only if one of these tokens is, is on the line of one of them. -/
theorem Error.exists_line {tokens : List Token} {e : Error} {n : Nat} (on : e.line? = some n)
    (stays : ∀ line : Nat → Nat, (∀ t ∈ tokens, line t.line = t.line) → e.reline line = e) :
    ∃ t ∈ tokens, t.line = n := by
  by_contra no
  have others : ∀ t ∈ tokens, t.line ≠ n := fun t mem here => no ⟨t, mem, here⟩
  -- the line that no token is on can be moved alone
  have moved := stays (fun l => if l = n then n + 1 else l) fun t mem => if_neg (others t mem)
  have lines := congrArg Error.line? moved
  rw [Error.line?_reline, on, Option.map_some, if_pos rfl] at lines
  exact Nat.succ_ne_self n (Option.some.inj lines)

namespace Program

/-- A program that cannot be read fails on the line of one of its tokens. -/
theorem exists_line_of_ofTokens {tokens : List Token} {e : Error} {n : Nat}
    (failed : ofTokens tokens = .error e) (on : e.line? = some n) : ∃ t ∈ tokens, t.line = n := by
  refine Error.exists_line on fun line fixed => ?_
  have same : tokens.map (Token.reline line) = tokens :=
    (List.map_congr_left fun t mem => Token.reline_eq_self (fixed t mem)).trans
      (List.map_id' tokens)
  have moved := (Relabelling.lines line).ofTokens_map tokens
  rw [show tokens.map (Relabelling.lines line).token = tokens from same, failed] at moved
  exact (Except.error.inj moved).symm

/-- A program fails while it runs on the line of one of its tokens. -/
theorem exists_line_of_run {p : Program} {s s' : Session} {e : Error} {n : Nat}
    (failed : p.run s = .error e s') (on : e.line? = some n) : ∃ t ∈ p.tokens, t.line = n := by
  refine Error.exists_line on fun line fixed => ?_
  have moved := congrFun (p.run_reline line) s
  rw [reline_eq_self fixed, Effect.reline, EStateM.adaptExcept, failed] at moved
  exact (EStateM.Result.error.inj moved).1.symm

end Program

/-! ## Tokens on the lines of their indices -/

namespace Token

/-- What is written of a token, wherever it stands. -/
def spelling (t : Token) : TokenKind × String :=
  (t.kind, t.lexeme)

/-- The tokens, each on the line of its own index. -/
def placed (tokens : List Token) : List Token :=
  tokens.mapIdx fun i t => { t with line := i }

/-- The line of the token at an index. -/
def lineAt (tokens : List Token) (i : Nat) : Nat :=
  (tokens[i]?.map Token.line).getD 0

/-- The token at an index is the one that was there, on the line of the index. -/
theorem getElem?_placed (tokens : List Token) (i : Nat) :
    (placed tokens)[i]? = tokens[i]?.map fun t => { t with line := i } :=
  List.getElem?_mapIdx

/-- Moved to their own lines, the tokens are what they were. -/
theorem map_reline_placed (tokens : List Token) :
    (placed tokens).map (reline (lineAt tokens)) = tokens := by
  refine List.ext_getElem? fun i => ?_
  rw [List.getElem?_map, getElem?_placed, Option.map_map]
  cases here : tokens[i]? with
  | none => rfl
  | some t =>
    have line : lineAt tokens i = t.line := by rw [lineAt, here]; rfl
    show some { t with line := lineAt tokens i } = some t
    rw [line]

/-- Tokens with the same spellings are the same on the lines of their indices. -/
theorem placed_eq {ts us : List Token} (same : ts.map spelling = us.map spelling) :
    placed ts = placed us := by
  have from_spelling (tokens : List Token) (i : Nat) : (placed tokens)[i]? =
      (tokens.map spelling)[i]?.map fun written => ⟨written.1, written.2, i⟩ := by
    rw [getElem?_placed, List.getElem?_map, Option.map_map]
    rfl
  refine List.ext_getElem? fun i => ?_
  rw [from_spelling, from_spelling, same]

end Token

/-! ## Alike but for lines -/

/-- The errors are the same but for their lines, and these are the lines of tokens at one index of
    two lists. -/
structure Error.Matches (ts us : List Token) (e e' : Error) : Prop where
  /-- Kind, cause, lexeme and text are the same. -/
  same : e.reline (fun _ => 0) = e'.reline (fun _ => 0)
  /-- One index gives both lines. -/
  lines : ∀ n, e.line? = some n → ∃ (i : Nat) (t u : Token), ts[i]? = some t ∧
    us[i]? = some u ∧ t.line = n ∧ e'.line? = some u.line

/-- Two runs end alike: with one outcome or with matching errors, and in one session. -/
inductive Effect.EndAlike (ts us : List Token) :
    EStateM.Result Error Session Outcome → EStateM.Result Error Session Outcome → Prop where
  | ok (outcome : Outcome) (s : Session) : EndAlike ts us (.ok outcome s) (.ok outcome s)
  | error {e e' : Error} (s : Session) (h : Error.Matches ts us e e') :
    EndAlike ts us (.error e s) (.error e' s)

/-- An error on the line of an index, moved to the lines of both lists, matches itself. -/
theorem Error.matches_reline {ts us : List Token}
    (same : ts.map Token.spelling = us.map Token.spelling) {e : Error}
    (named : ∀ n, e.line? = some n → ∃ t ∈ Token.placed ts, t.line = n) :
    Matches ts us (e.reline (Token.lineAt ts)) (e.reline (Token.lineAt us)) where
  same := by
    rw [reline_reline, reline_reline]
    rfl
  lines n on := by
    rw [line?_reline] at on
    obtain ⟨i, placed, rfl⟩ := Option.map_eq_some_iff.mp on
    obtain ⟨v, mem, rfl⟩ := named i placed
    obtain ⟨i, here⟩ := List.mem_iff_getElem?.mp mem
    rw [Token.getElem?_placed] at here
    obtain ⟨t, first, rfl⟩ := Option.map_eq_some_iff.mp here
    -- the lists are equally long, so there is a token at this index of the other one
    have both := congrArg (·[i]?) same
    simp only [List.getElem?_map, first, Option.map_some] at both
    obtain ⟨u, second, _⟩ := Option.map_eq_some_iff.mp both.symm
    refine ⟨i, t, u, first, second, ?_, ?_⟩
    · rw [Token.lineAt, first]
      rfl
    · rw [line?_reline, placed, Option.map_some, Token.lineAt, second]
      rfl

namespace Program

/-- Tokens are read as they are on the lines of their indices, and the result is moved back. -/
theorem ofTokens_eq_placed (tokens : List Token) :
    ofTokens tokens = (Relabelling.lines (Token.lineAt tokens)).result
      (reline (Token.lineAt tokens)) (ofTokens (Token.placed tokens)) := by
  have moved := (Relabelling.lines (Token.lineAt tokens)).ofTokens_map (Token.placed tokens)
  rwa [show (Token.placed tokens).map (Relabelling.lines _).token = tokens from
    Token.map_reline_placed tokens] at moved

/-- A program read from tokens on the lines of their indices, moved to the lines of two lists, runs
    alike on both. -/
theorem endAlike_reline {ts us : List Token}
    (same : ts.map Token.spelling = us.map Token.spelling) {p : Program}
    (read : ofTokens (Token.placed ts) = .ok p) (s : Session) :
    Effect.EndAlike ts us ((p.reline (Token.lineAt ts)).run s)
      ((p.reline (Token.lineAt us)).run s) := by
  rw [run_reline, run_reline]
  unfold Effect.reline EStateM.adaptExcept
  cases ended : p.run s with
  | ok outcome s' => exact .ok outcome s'
  | error e s' =>
    refine .error s' (Error.matches_reline same fun n on => ?_)
    obtain ⟨t, mem, line⟩ := exists_line_of_run ended on
    rw [tokens_of_ofTokens read] at mem
    exact ⟨t, Token.mem_of_mem_kept mem, line⟩

/-- Layout changes lines and nothing else.  Two texts whose tokens have the same kinds and lexemes
    make programs that are the same but for lines and run alike from every session, or neither makes
    one, and their errors match. -/
theorem layout_irrelevant {a b : String} {ts us : List Token} (cut : Source.tokens a = .ok ts)
    (cut' : Source.tokens b = .ok us) (same : ts.map Token.spelling = us.map Token.spelling) :
    (∃ p p', ofSource a = .ok p ∧ ofSource b = .ok p' ∧
      p.reline (fun _ => 0) = p'.reline (fun _ => 0) ∧
      ∀ s, Effect.EndAlike ts us (p.run s) (p'.run s)) ∨
    (∃ e e', ofSource a = .error e ∧ ofSource b = .error e' ∧ Error.Matches ts us e e') := by
  have first : ofSource a = ofTokens ts := by rw [ofSource, cut]; rfl
  have second : ofSource b = ofTokens us := by rw [ofSource, cut']; rfl
  rw [first, second, ofTokens_eq_placed ts, ofTokens_eq_placed us, ← Token.placed_eq same]
  cases read : ofTokens (Token.placed ts) with
  | ok p =>
    refine .inl ⟨_, _, rfl, rfl, ?_, endAlike_reline same read⟩
    rw [reline_reline, reline_reline]
    rfl
  | error e =>
    refine .inr ⟨_, _, rfl, rfl, Error.matches_reline same fun n on => ?_⟩
    exact exists_line_of_ofTokens read on

/-- The same assignments on three lines and on one: both stop at the name without value, which is
    the sixth token of either text, having assigned the same. -/
theorem layout_irrelevant_of_undefined :
    let name (lexeme : String) (line : Nat) : Token := ⟨.identifier, lexeme, line⟩
    let sign (line : Nat) : Token := ⟨.equal, "=", line⟩
    let ts := [name "x" 1, sign 1, name "z" 2, name "y" 3, sign 3, name "w" 3]
    let us := [name "x" 1, sign 1, name "z" 1, name "y" 1, sign 1, name "w" 1]
    let session (entries : List (String × Float)) : Session :=
      { store := ⟨entries⟩, reader := ⟨[], none⟩ }
    Source.tokens "x =\n\tz\ny=w" = .ok ts ∧ Source.tokens "x = z y = w" = .ok us ∧
    ts.map Token.spelling = us.map Token.spelling ∧
    ∃ p p', ofSource "x =\n\tz\ny=w" = .ok p ∧ ofSource "x = z y = w" = .ok p' ∧
      p.run (session [("z", 1.0)]) =
        .error (.undefinedName (name "w" 3)) (session [("z", 1.0), ("x", 1.0)]) ∧
      Effect.EndAlike ts us (p.run (session [("z", 1.0)])) (p'.run (session [("z", 1.0)])) := by
  intro name sign ts us session
  have cut : Source.tokens "x =\n\tz\ny=w" = .ok ts := rfl
  have cut' : Source.tokens "x = z y = w" = .ok us := rfl
  rcases layout_irrelevant cut cut' rfl with ⟨p, p', read, read', _, alike⟩ | ⟨e, _, failed, _⟩
  · refine ⟨cut, cut', rfl, p, p', read, read', ?_, alike _⟩
    cases read
    rfl
  · cases failed

end Program

end NumScript
