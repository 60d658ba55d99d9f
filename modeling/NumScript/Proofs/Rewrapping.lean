/-
  Errors that go to the outer world and come back.

  Each turn makes a failure of the outer world of an error, with the description of the error as
  its text, and then an error of this failure (`Error.rewrap`).  What kind of error it was, where it
  was and why it came about can no longer be asked after the first turn: every error that has come
  back is one of input and output.  But it can still be read.  A turn writes its words in front of
  the description and changes nothing behind them (`Error.describe_rewrap`).  So whatever the number
  of turns, two errors that have come back are the same exactly if their descriptions were, and the
  failure behind an error tells what the error said one turn before (`Error.rewrap_exact`).
-/
import NumScript.Error

namespace NumScript.Error

/-- What `n` turns write in front of a description. -/
def turnWords (n : Nat) : String :=
  String.join (List.replicate n "IO error: ")

theorem turnWords_succ (n : Nat) : turnWords (n + 1) = "IO error: " ++ turnWords n := by
  rw [turnWords, List.replicate_succ, String.join_cons, turnWords]

/-- Every turn writes its words in front of the description. -/
theorem describe_rewrap (n : Nat) (e : Error) :
    (e.rewrap n).describe = turnWords n ++ e.describe := by
  induction n with
  | zero => exact String.empty_append.symm
  | succ n ih =>
    show "IO error: " ++ (e.rewrap n).describe = _
    rw [ih, turnWords_succ, String.append_assoc]

/-- Errors that have come back are told apart by their first descriptions and by nothing else. -/
theorem rewrap_eq_iff (n : Nat) (e e' : Error) :
    e.rewrap (n + 1) = e'.rewrap (n + 1) ↔ e.describe = e'.describe := by
  constructor
  · intro same
    have texts := congrArg describe same
    rw [describe_rewrap, describe_rewrap] at texts
    exact (String.append_right_inj _).mp texts
  · intro same
    have texts : (e.rewrap n).describe = (e'.rewrap n).describe := by
      rw [describe_rewrap, describe_rewrap, same]
    rw [rewrap, rewrap, toFailure, toFailure, texts]

/-- Turning errors is exact.  After one turn or more any error is one of input and output, of no
    particular kind; it has no line and no cause, and no longer counts as lexical or syntactic.  Its
    description is that of the first error behind as many `IO error: ` as there were turns, and the
    failure behind it says what the error said one turn before.  Nothing of the first description is
    lost: two errors are the same after the turns only if they were described alike. -/
theorem rewrap_exact (e : Error) (n : Nat) :
    (e.rewrap (n + 1) = .io ⟨.other, (e.rewrap n).describe⟩ ∧
      (e.rewrap (n + 1)).failure? = some ⟨.other, (e.rewrap n).describe⟩) ∧
    (e.rewrap (n + 1)).describe =
      String.join (List.replicate (n + 1) "IO error: ") ++ e.describe ∧
    (e.rewrap (n + 1)).text = "IO error" ∧
    (e.rewrap (n + 1)).line? = none ∧ (e.rewrap (n + 1)).cause? = none ∧
    (e.rewrap (n + 1)).isLexical = false ∧ (e.rewrap (n + 1)).isSyntactic = false ∧
    ∀ e' : Error, e.rewrap (n + 1) = e'.rewrap (n + 1) ↔ e.describe = e'.describe :=
  ⟨⟨rfl, rfl⟩, describe_rewrap (n + 1) e, rfl, rfl, rfl, rfl, rfl, rewrap_eq_iff n e⟩

-- What failed at first is read at the end.
example : (rewrap 2 (unexpectedCharacter 3 '#')).describe =
    "IO error: IO error: [line 3] Error: Unexpected character '#'." := by
  decide

end NumScript.Error
