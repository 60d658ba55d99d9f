/-
  Reading on behind an error.

  A cursor can be asked for a program again and again.  Each call begins anew with the tokens that
  are left: of the calls before it nothing else shows, neither in the program or error that it gives
  nor in the tokens that it leaves (`Cursor.program_line`).  It ends in one of three ways
  (`Cursor.Ends`): at a token that does not fit, which is the last one that it takes, or with all
  tokens taken, as a program or because something is missing.

  So a call that fails takes a token at least, and there are no more such calls than tokens
  (`Cursor.countP_programs_le`); and once a call has taken all tokens, every later one gives the
  empty program (`Cursor.programs_resume`).

  The line that a cursor remembers is told only where something is missing and no token was read
  before that; but nothing is missing in an empty program.
-/
import NumScript.Proofs.EarliestError
import NumScript.Proofs.ParserExactness

namespace NumScript

namespace Cursor

/-! ## Calls one after the other -/

/-- The cursor behind `n` programs that are read one after the other. -/
def skip : Nat → Cursor → Cursor
  | 0, c => c
  | n + 1, c => skip n c.program.2

theorem skip_add (m n : Nat) (c : Cursor) : skip (m + n) c = skip n (skip m c) := by
  induction m generalizing c with
  | zero => rw [Nat.zero_add]; rfl
  | succ m ih =>
    rw [Nat.succ_add]
    exact ih c.program.2

/-- The call number `i`, counted from zero, is made where `i` programs have been read. -/
theorem programs_eq_map (n : Nat) (c : Cursor) :
    programs n c = (List.range n).map fun i => (skip i c).program.1 := by
  induction n generalizing c with
  | zero => rfl
  | succ n ih =>
    rw [programs, ih, List.range_succ_eq_map, List.map_cons, List.map_map]
    rfl

/-- The line remembered from earlier calls shows neither in what is read nor in what is left. -/
theorem program_line (tokens : List Token) (line line' : Nat) :
    (program ⟨tokens, line⟩).1 = (program ⟨tokens, line'⟩).1 ∧
      (program ⟨tokens, line⟩).2.rest = (program ⟨tokens, line'⟩).2.rest := by
  cases tokens with
  | nil => exact ⟨rfl, rfl⟩
  | cons t rest => exact ⟨rfl, rfl⟩

/-- Where nothing is left, the empty program is read. -/
theorem program_of_nil {c : Cursor} (h : c.rest = []) :
    c.program.1 = .ok ⟨[]⟩ ∧ c.program.2.rest = [] := by
  obtain ⟨tokens, line⟩ := c
  cases h
  exact ⟨rfl, rfl⟩

theorem rest_skip_of_nil {c : Cursor} (h : c.rest = []) (n : Nat) : (skip n c).rest = [] := by
  induction n generalizing c with
  | zero => exact h
  | succ n ih => exact ih (program_of_nil h).2

/-! ## How a call ends -/

/-- The ways in which a call ends on these tokens: with this program or error, and leaving these
    tokens. -/
inductive Ends (tokens : List Token) : Except Error Program → List Token → Prop where
  /-- At a token that does not fit, the first with which the tokens are no longer viable. -/
  | misplaced {front rest : List Token} {t : Token} {text : String}
    (split : tokens = front ++ t :: rest) (viable : Viable front)
    (stuck : ¬ Viable (front ++ [t])) :
    Ends tokens (.error (.syntactic t.line (some t.lexeme) text)) rest
  /-- At the end, where something is missing. -/
  | missing {last : Token} {text : String} (isLast : tokens.getLast? = some last) :
    Ends tokens (.error (.syntactic last.line none text)) []
  /-- At the end of a program. -/
  | complete (p : Program) : Ends tokens (.ok p) []

/-- Every call ends in one of these ways. -/
theorem program_ends (c : Cursor) : Ends c.rest c.program.1 c.program.2.rest := by
  cases result : c.program.1 with
  | ok p =>
    have all : c.program.2.rest = [] := rest_of_readFrom result
    rw [all]
    exact .complete p
  | error e =>
    have whole : readFrom .empty c.line c.rest = (.error e, c.program.2) := Prod.ext result rfl
    rcases readFrom_error whole with ⟨front, t, rest, d, split, reached, stuck, stop⟩ |
      ⟨d, line, _, missing, stop, last⟩
    · obtain ⟨text, rfl⟩ := Draft.misplaced_of_step stuck
      rw [stop]
      exact .misplaced split (.of_after? reached) (not_viable_of_step reached stuck)
    · obtain ⟨text, rfl⟩ := Draft.unexpectedEnd_of_finish missing
      rw [stop]
      cases isLast : c.rest.getLast? with
      | none =>
        have empty := (program_of_nil (List.getLast?_eq_none_iff.mp isLast)).1
        rw [result] at empty
        cases empty
      | some t =>
        rw [isLast] at last
        obtain rfl : line = t.line := last
        exact .missing isLast

/-- What a call takes, it takes from the front. -/
theorem rest_program_suffix (c : Cursor) : c.program.2.rest <:+ c.rest := by
  have ends := c.program_ends
  generalize c.program.1 = result at ends
  generalize c.program.2.rest = rest at ends ⊢
  cases ends with
  | misplaced split =>
    rw [split]
    exact (List.suffix_cons _ _).trans (List.suffix_append _ _)
  | missing => exact List.nil_suffix
  | complete => exact List.nil_suffix

/-- Reading on leaves an end of what was left. -/
theorem rest_skip_suffix (n : Nat) (c : Cursor) : (skip n c).rest <:+ c.rest := by
  induction n generalizing c with
  | zero => exact List.suffix_rfl
  | succ n ih => exact (ih c.program.2).trans c.rest_program_suffix

/-- A call that fails takes a token at least. -/
theorem length_rest_lt {c : Cursor} {e : Error} (h : c.program.1 = .error e) :
    c.program.2.rest.length < c.rest.length := by
  have ends := c.program_ends
  rw [h] at ends
  generalize c.program.2.rest = rest at ends ⊢
  cases ends with
  | misplaced split =>
    rw [split, List.length_append, List.length_cons]
    omega
  | missing isLast => exact List.length_pos_iff.mpr fun no => by rw [no] at isLast; cases isLast

/-- No more calls fail than there are tokens. -/
theorem countP_programs_le (n : Nat) (c : Cursor) :
    (programs n c).countP (fun result => !result.isOk) ≤ c.rest.length := by
  induction n generalizing c with
  | zero => exact Nat.zero_le _
  | succ n ih =>
    have later := ih c.program.2
    rw [programs, List.countP_cons]
    cases result : c.program.1 with
    | ok p =>
      have all : c.program.2.rest = [] := rest_of_readFrom result
      rw [all, List.length_nil] at later
      show _ + 0 ≤ _
      omega
    | error e =>
      have shorter := length_rest_lt result
      show _ + 1 ≤ _
      omega

/-- Reading goes on behind an error.  Of any number of calls on some tokens, each gives what a first
    call would give on the tokens that are left, and leaves what that would leave.  It ends at the
    first token that does not fit, having taken the tokens up to that one, or it takes all tokens;
    and behind a call that gives a program, or finds something missing at the end, every call gives
    the empty program.  A call that fails takes a token at least, and no more calls fail than there
    are tokens. -/
theorem programs_resume (tokens : List Token) (n : Nat) :
    let c := skip n ⟨tokens, 1⟩
    (programs (n + 1) ⟨tokens, 1⟩)[n]? = some c.program.1 ∧ c.rest <:+ tokens ∧
    (c.program.1 = (program ⟨c.rest, 1⟩).1 ∧
      c.program.2.rest = (program ⟨c.rest, 1⟩).2.rest) ∧
    Ends c.rest c.program.1 c.program.2.rest ∧
    ((∃ p, c.program.1 = .ok p) ∨ (∃ line text, c.program.1 = .error (.syntactic line none text)) →
      c.program.2.rest = [] ∧ ∀ m, n < m → (skip m ⟨tokens, 1⟩).program.1 = .ok ⟨[]⟩) ∧
    (∀ e, c.program.1 = .error e → c.program.2.rest.length < c.rest.length) ∧
    (programs n ⟨tokens, 1⟩).countP (fun result => !result.isOk) ≤ tokens.length := by
  intro c
  have ends : Ends c.rest c.program.1 c.program.2.rest := c.program_ends
  refine ⟨?_, rest_skip_suffix n ⟨tokens, 1⟩, program_line c.rest c.line 1, ends, ?_,
    fun _ => length_rest_lt, countP_programs_le n ⟨tokens, 1⟩⟩
  · rw [programs_eq_map, List.getElem?_map, List.getElem?_range (Nat.lt_succ_self n)]
    rfl
  · intro result
    have all : c.program.2.rest = [] := by
      generalize c.program.1 = ended at ends result
      generalize c.program.2.rest = rest at ends ⊢
      cases ends with
      | misplaced => rcases result with ⟨_, no⟩ | ⟨_, _, no⟩ <;> cases no
      | missing => rfl
      | complete => rfl
    refine ⟨all, ?_⟩
    intro m later
    obtain ⟨k, rfl⟩ : ∃ k, m = n + (1 + k) := ⟨m - n - 1, by omega⟩
    rw [skip_add, skip_add]
    exact (program_of_nil (rest_skip_of_nil all k)).1

-- The first call ends at the parenthesis, the second at the last sign, and then nothing is left.
example : programs 3 ⟨[⟨.rightParen, ")", 4⟩, ⟨.identifier, "x", 4⟩, ⟨.equal, "=", 4⟩,
      ⟨.number 1.0, "1", 5⟩, ⟨.equal, "=", 5⟩], 1⟩ =
    [.error (.syntactic 4 (some ")") "Expected expression."),
      .error (.syntactic 5 (some "=") "Invalid assignment target."), .ok ⟨[]⟩] :=
  rfl

end Cursor

end NumScript
