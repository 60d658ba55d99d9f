/-
  Sessions: what programs share when they run one after the other.

  A session is the store, the reader and the writer, and the prompt that is shown before a program
  reads a number.  An EFFECT is something done to a session that gives a value or fails; whatever
  it had done before it failed stays done.

  The effects of this file are the only ones that touch the reader or the writer.
-/
import NumScript.Console
import NumScript.Store

namespace NumScript

/-- The state in which programs run. -/
structure Session where
  /-- The variables. -/
  store : Store := .empty
  /-- Where lines are read. -/
  reader : Reader
  /-- Where text is written. -/
  writer : Writer := {}
  /-- What is written before a number is read, if anything. -/
  prompt : Option String := none

/-- Something done to a session. -/
abbrev Effect :=
  EStateM Error Session

namespace Effect

/-- How an effect ends whose device did this and left this session. -/
def ofDevice {α : Type} (result : Except IoFailure α) (s : Session) :
    EStateM.Result Error Session α :=
  match result with
  | .ok value => .ok value s
  | .error failure => .error (.io failure) s

/-- Writes a text. -/
def write (text : String) : Effect Unit := fun s =>
  let next := s.writer.put (Text.encode text)
  ofDevice next.1 { s with writer := next.2 }

/-- Flushes the writer. -/
def flush : Effect Unit := fun s =>
  let next := s.writer.flush
  ofDevice next.1 { s with writer := next.2 }

/-- Writes a text and flushes the writer. -/
def announce (text : String) : Effect Unit := do
  write text
  flush

/-- Takes a line off the reader; `none` at the end of the input. -/
def takeLine : Effect (Option String) := fun s =>
  let next := s.reader.readLine
  ofDevice next.1 { s with reader := next.2 }

/-- Announces a prompt and takes a line off the reader. -/
def readLine (prompt : String) : Effect (Option String) := do
  announce prompt
  takeLine

/-- Does `last` after an effect, however it ended.  If `last` fails, that is how both end. -/
def thenAlways {α : Type} (effect : Effect α) (last : Effect Unit) : Effect α := fun s =>
  match effect s with
  | .ok value s => (do last; return value) s
  | .error e s => (do last; throw e) s

end Effect

end NumScript
