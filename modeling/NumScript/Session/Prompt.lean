/-
  Sessions that read their programs line by line.

  A prompt is shown and the next line of the reader is run as a program; the lines that the program
  itself reads come from the same reader.  An error of a program is described on a writer of its
  own and the session goes on.  It ends at the end of the input, at a `halt`, or when the prompt,
  the reader or the writer for errors fails.  Every turn takes a line off the reader, so there is
  an end.
-/
import NumScript.Session.Reading

namespace NumScript

/-- What is shown before a program line is read. -/
def programPrompt : String :=
  "> "

/-- How a session that read its programs line by line has ended. -/
structure PromptEnd where
  /-- Whether it could go on to its end. -/
  result : Except Error Unit
  /-- The session then. -/
  session : Session
  /-- What was told about errors of programs. -/
  errors : Writer

/-- Describes an error on a writer, in a line of its own. -/
def Writer.report (errors : Writer) (e : Error) : Except IoFailure Unit × Writer :=
  errors.put (Text.encode (e.describe ++ "\n"))

/-- A program line leaves less to read than there was before it. -/
theorem Session.bytes_lt_of_runSource {s s₁ s₂ : Session} {line : String}
    (hl : Effect.readLine programPrompt s = .ok (some line) s₁)
    (hr : (Effect.runSource line).after s₁ = s₂) :
    s₂.reader.bytes.length < s.reader.bytes.length := by
  subst hr
  exact Nat.lt_of_le_of_lt (Effect.consumes_runSource line s₁).length_le
    (Effect.bytes_lt_of_readLine hl)

set_option linter.unusedVariables false in
/-- Runs the lines of the reader as programs. -/
def Session.runPrompt (s : Session) (errors : Writer) : PromptEnd :=
  match hl : Effect.readLine programPrompt s with
  | .error e s₁ => ⟨.error e, s₁, errors⟩
  | .ok none s₁ => ⟨.ok (), s₁, errors⟩
  | .ok (some line) s₁ =>
    match hr : Effect.runSource line s₁ with
    | .ok .halted s₂ => ⟨.ok (), s₂, errors⟩
    | .ok .completed s₂ => s₂.runPrompt errors
    | .error e s₂ =>
      match errors.report e with
      | (.ok _, errors) => s₂.runPrompt errors
      | (.error failure, errors) => ⟨.error (.io failure), s₂, errors⟩
termination_by s.reader.bytes.length
decreasing_by
  · exact bytes_lt_of_runSource hl (Effect.after_of_ok hr)
  · exact bytes_lt_of_runSource hl (Effect.after_of_error hr)

end NumScript
