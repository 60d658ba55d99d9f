/-
  Turns of a session that reads its programs line by line.

  In one turn, the prompt is shown, a line is taken and run as a program, and an error of it is
  told.  A session that has made a turn goes on as the session after it
  (`Session.runPrompt_of_turns`), and it ends with the first line after which it cannot go on
  (`Session.runPrompt_of_line`), or where no line can be had.
-/
import Mathlib.Logic.Relation
import NumScript.Session.Prompt

namespace NumScript

namespace Session

open Effect

/-- One turn of a session that reads its programs line by line, after which it goes on.  An error is
    told to the writer beside the session. -/
inductive Turn : Session × Writer → Session × Writer → Prop where
  | completed {s s₁ s₂ : Session} {errors : Writer} {line : String}
      (read : readLine programPrompt s = .ok (some line) s₁)
      (ran : runSource line s₁ = .ok .completed s₂) : Turn (s, errors) (s₂, errors)
  | failed {s s₁ s₂ : Session} {errors errors' : Writer} {line : String} {e : Error}
      (read : readLine programPrompt s = .ok (some line) s₁)
      (ran : runSource line s₁ = .error e s₂) (told : errors.report e = (.ok (), errors')) :
      Turn (s, errors) (s₂, errors')

variable {s s₁ s₂ : Session} {errors : Writer} {line : String}

/-- Where no line can be read the session ends. -/
theorem runPrompt_of_error {e : Error} (read : readLine programPrompt s = .error e s₁) :
    s.runPrompt errors = ⟨.error e, s₁, errors⟩ := by
  rw [runPrompt]
  split
  · rename_i read'
    cases read.symm.trans read'
    rfl
  · rename_i read'
    cases read.symm.trans read'
  · rename_i read'
    cases read.symm.trans read'

/-- At the end of the reader the session ends. -/
theorem runPrompt_of_end (read : readLine programPrompt s = .ok none s₁) :
    s.runPrompt errors = ⟨.ok (), s₁, errors⟩ := by
  rw [runPrompt]
  split
  · rename_i read'
    cases read.symm.trans read'
  · rename_i read'
    cases read.symm.trans read'
    rfl
  · rename_i read'
    cases read.symm.trans read'

/-- With a line the session goes on by how that has run. -/
theorem runPrompt_of_line (read : readLine programPrompt s = .ok (some line) s₁) :
    s.runPrompt errors = (match runSource line s₁ with
      | .ok .halted s₂ => ⟨.ok (), s₂, errors⟩
      | .ok .completed s₂ => s₂.runPrompt errors
      | .error e s₂ =>
        match errors.report e with
        | (.ok _, errors) => s₂.runPrompt errors
        | (.error failure, errors) => ⟨.error (.io failure), s₂, errors⟩) := by
  rw [runPrompt]
  split
  · rename_i read'
    cases read.symm.trans read'
  · rename_i read'
    cases read.symm.trans read'
  · rename_i read'
    cases read.symm.trans read'
    split
    · rename_i ran
      rw [ran]
    · rename_i ran
      rw [ran]
    · rename_i e s₂ ran
      rcases told : errors.report e with ⟨_ | _, _⟩ <;> simp only [ran, told]

/-- A session goes on as the session after its turn. -/
theorem runPrompt_of_turn {before after : Session × Writer} (turn : Turn before after) :
    before.1.runPrompt before.2 = after.1.runPrompt after.2 := by
  cases turn with
  | completed read ran => rw [runPrompt_of_line read, ran]
  | failed read ran told => simp only [runPrompt_of_line read, ran, told]

/-- After any number of turns a session goes on as it would have done from there. -/
theorem runPrompt_of_turns {before after : Session × Writer}
    (turns : Relation.ReflTransGen Turn before after) :
    before.1.runPrompt before.2 = after.1.runPrompt after.2 := by
  induction turns with
  | refl => rfl
  | tail _ turn ih => exact ih.trans (runPrompt_of_turn turn)

end Session

end NumScript
