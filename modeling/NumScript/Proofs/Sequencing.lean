/-
  Programs that run one after the other.

  What a program does, does not depend on the lines that it stands on; only the errors name them.
  So a program that stands elsewhere corresponds to itself here (`Correspondence.lines`): it runs
  as it does here, and fails with the same errors elsewhere (`Program.run_reline`).

  Statements behind others are executed in the session that those leave, if they complete
  (`Stmt.execAll_append`).  The flush at the end of the first is not seen where flushing never fails
  (`Program.run_eq_execAll`).  Together with what joined texts spell
  (`Program.ofSource_append_blank`) this says that a text is run in pieces as in one piece
  (`Program.run_append_newline`).
-/
import NumScript.Proofs.Correspondence
import NumScript.Proofs.Joining

namespace NumScript

/-! ## Programs on other lines -/

/-- The effect, whose error is moved to another line if it fails. -/
def Effect.reline {α : Type} (line : Nat → Nat) (a : Effect α) : Effect α :=
  EStateM.adaptExcept (Error.reline line) a

theorem Token.isFaithful_reline (line : Nat → Nat) : Correspondence.IsFaithful (reline line)
    (fun s s' => s' = s) (fun e e' => e' = e.reline line) fun _ => True where
  kind_token _ := rfl
  reader same := by rw [same]
  writer same := by rw [same]
  prompt same := by rw [same]
  get? same _ _ := by rw [same]; rfl
  set same _ _ := by rw [same]; rfl
  device same _ _ := by rw [same]
  error_io _ := rfl
  error_undefinedName _ := rfl
  error_badValue _ _ := rfl
  error_arithmetic _ _ := rfl
  error_notOperator _ := rfl

/-- Tokens and errors correspond that are on other lines. -/
def Correspondence.lines (line : Nat → Nat) : Correspondence where
  token := Token.reline line
  session s s' := s' = s
  error e e' := e' = e.reline line
  names _ := True
  faithful := Token.isFaithful_reline line

/-- An effect that corresponds to another is that, but for the line of its error. -/
theorem Correspondence.eq_reline {α : Type} {line : Nat → Nat} {a b : Effect α}
    (h : (lines line).Effects a b) : b = a.reline line := by
  funext s
  have ended := h s s rfl
  unfold Effect.reline EStateM.adaptExcept
  generalize a s = one at ended
  generalize b s = other at ended
  cases ended with
  | ok x same =>
    cases same
    rfl
  | error h same =>
    cases same
    cases h
    rfl

/-- Statements on other lines are executed as they are here. -/
theorem Stmt.execAll_reline (line : Nat → Nat) (body : List Stmt) :
    execAll (mapAll (Token.reline line) body) = (execAll body).reline line :=
  Correspondence.eq_reline (Correspondence.execAll (Expr.allNamed_true _))

/-- A program on other lines runs as it does here. -/
theorem Program.run_reline (line : Nat → Nat) (p : Program) :
    (p.reline line).run = p.run.reline line :=
  Correspondence.eq_reline (Correspondence.run (Expr.allNamed_true _))

/-! ## One after the other -/

open Effect

/-- Statements behind others are executed in the session that those leave, if they complete. -/
theorem Stmt.execAll_append (body body' : List Stmt) :
    execAll (body ++ body') = (do
      match ← execAll body with
      | .completed => execAll body'
      | .halted => return .halted) := by
  induction body with
  | nil => simp only [List.nil_append, execAll, pure_bind]
  | cons s rest ih =>
    rw [List.cons_append, execAll, execAll, bind_assoc]
    refine bind_congr fun outcome => ?_
    cases outcome with
    | completed => exact ih
    | halted => rfl

namespace Program

/-- A text is run in pieces as in one piece.  Where flushing never fails, a text, a line end and
    another text run as the first text and, if that completes, the second text in the session that
    it leaves.  An error of the second is the same on the lines behind the first. -/
theorem run_append_newline {a b : String} {p q : Program} (first : ofSource a = .ok p)
    (second : ofSource b = .ok q) (s : Session) (flushes : s.writer.flushes = none) :
    ∃ joined, ofSource (a ++ "\n" ++ b) = .ok joined ∧
      joined.run s = (match p.run s with
        | .ok .completed s' =>
          match q.run s' with
          | .ok outcome s'' => .ok outcome s''
          | .error e s'' => .error (e.reline (· + (1 + a.toList.count '\n'))) s''
        | ended => ended) := by
  refine ⟨_, ofSource_append_blank (c := '\n') rfl first second, ?_⟩
  rw [count_append_newline, run_eq_execAll _ flushes, run_eq_execAll p flushes,
    Stmt.execAll_append]
  have still := flushes_after_execAll p.body flushes
  cases run : Stmt.execAll p.body s with
  | error e s' => exact bind_of_error run
  | ok outcome s' =>
    rw [bind_of_ok run]
    rw [after_of_ok run] at still
    cases outcome with
    | halted => rfl
    | completed =>
      dsimp only
      rw [← run_eq_execAll (q.reline _) still, run_reline, Effect.reline,
        EStateM.adaptExcept]
      cases q.run s' <;> rfl

/-- What the first text assigns is there when the second fails, on line 3. -/
theorem run_append_newline_of_undefined :
    let assigns (line : Nat) (name value : String) : Stmt :=
      .expression (.assign ⟨.identifier, name, line⟩ (.var ⟨.identifier, value, line⟩))
    let session (entries : List (String × Float)) : Session :=
      { store := ⟨entries⟩, reader := ⟨[], none⟩ }
    ofSource "x = y\ny = x" = .ok ⟨[assigns 1 "x" "y", assigns 2 "y" "x"]⟩ ∧
    ofSource "y = z" = .ok ⟨[assigns 1 "y" "z"]⟩ ∧
    ∃ joined, ofSource ("x = y\ny = x" ++ "\n" ++ "y = z") = .ok joined ∧
      joined.run (session [("y", 1.0)]) =
        .error (.undefinedName ⟨.identifier, "z", 3⟩) (session [("y", 1.0), ("x", 1.0)]) := by
  intro assigns session
  have first : ofSource "x = y\ny = x" = .ok ⟨[assigns 1 "x" "y", assigns 2 "y" "x"]⟩ := rfl
  have second : ofSource "y = z" = .ok ⟨[assigns 1 "y" "z"]⟩ := rfl
  obtain ⟨joined, parsed, ran⟩ := run_append_newline first second (session [("y", 1.0)]) rfl
  exact ⟨first, second, joined, parsed, ran⟩

end Program

end NumScript
