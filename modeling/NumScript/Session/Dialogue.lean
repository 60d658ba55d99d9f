/-
  Dialogues: a session that is asked to do one thing after another.

  Programs run in one session share its store, reader and writer, and the last program that could be
  read can be run again.  A request is answered by a reply and the dialogue after it.
-/
import NumScript.Session.Prompt

namespace NumScript

/-- A session and the program that was read last. -/
structure Dialogue where
  /-- The session. -/
  session : Session
  /-- The last source text that was a program. -/
  last : Option Program := none

/-- What a session can be asked to do. -/
inductive Request where
  /-- To run a source text. -/
  | run (source : String)
  /-- To run the last program again. -/
  | again
  /-- To tell the value of a variable. -/
  | variable (name : String)
  /-- To show a prompt and read a line. -/
  | readLine (prompt : String)
  /-- To show this prompt from now on before a number is read. -/
  | setPrompt (prompt : String)
  /-- To run the lines of its reader as programs, telling errors to this writer. -/
  | runPrompt (errors : Writer)

/-- What comes of a request. -/
inductive Reply where
  /-- A program was run. -/
  | outcome (result : Except Error Outcome)
  /-- There is no program to run again. -/
  | noProgram
  /-- The value of a variable, if it has one. -/
  | value (value : Option Float)
  /-- A line was read; `none` at the end of the input. -/
  | line (result : Except Error (Option String))
  /-- The prompt was set. -/
  | done
  /-- Program lines were run. -/
  | prompted (result : Except Error Unit) (errors : Writer)

namespace Dialogue

/-- Runs an effect on the session of a dialogue. -/
def perform {α : Type} (d : Dialogue) (effect : Effect α) : Except Error α × Dialogue :=
  match effect d.session with
  | .ok value session => (.ok value, { d with session })
  | .error e session => (.error e, { d with session })

/-- Runs a program, which is the last one from now on. -/
def runProgram (d : Dialogue) (p : Program) : Reply × Dialogue :=
  let next := { d with last := some p }.perform p.run
  (.outcome next.1, next.2)

/-- Answers a request. -/
def answer (d : Dialogue) : Request → Reply × Dialogue
  | .run source =>
    match Program.ofSource source with
    | .ok p => d.runProgram p
    | .error e => (.outcome (.error e), d)
  | .again =>
    match d.last with
    | some p => d.runProgram p
    | none => (.noProgram, d)
  | .variable name => (.value (d.session.store.get? name), d)
  | .readLine prompt =>
    let next := d.perform (Effect.readLine prompt)
    (.line next.1, next.2)
  | .setPrompt prompt => (.done, { d with session := { d.session with prompt := some prompt } })
  | .runPrompt errors =>
    let ended := d.session.runPrompt errors
    (.prompted ended.result ended.errors, { d with session := ended.session })

/-- Answers requests one after the other. -/
def answers (d : Dialogue) : List Request → List Reply × Dialogue
  | [] => ([], d)
  | request :: rest =>
    let next := d.answer request
    let later := next.2.answers rest
    (next.1 :: later.1, later.2)

end Dialogue

end NumScript
