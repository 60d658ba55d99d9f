/-
  Errors and what is told about them.

  An error arises while a text is cut into tokens (lexical), while tokens are put together to a
  program (syntactic), while a program runs (runtime), or when the outer world fails (input and
  output).  All but the last are placed on a line of the program.

  `Error.describe` is the one line that a user sees.  An error can be handed to the outer world as
  a failure of its own and come back as an error: each such turn (`Error.rewrap`) keeps the whole
  description of the error before it as its text.
-/
import NumScript.Token

namespace NumScript

/-! ## Failures of the outer world -/

/-- The kinds of failure that reading, writing and opening files can have. -/
inductive IoKind where
  | notFound | permissionDenied | connectionRefused | connectionReset | hostUnreachable
  | networkUnreachable | connectionAborted | notConnected | addrInUse | addrNotAvailable
  | networkDown | brokenPipe | alreadyExists | wouldBlock | notADirectory | isADirectory
  | directoryNotEmpty | readOnlyFilesystem | staleNetworkFileHandle | invalidInput | invalidData
  | timedOut | writeZero | storageFull | notSeekable | quotaExceeded | fileTooLarge | resourceBusy
  | executableFileBusy | deadlock | crossesDevices | tooManyLinks | invalidFilename
  | argumentListTooLong | interrupted | unsupported | unexpectedEof | outOfMemory | other
deriving DecidableEq

/-- A failure of the outer world: its kind and its own words. -/
structure IoFailure where
  /-- The kind of failure. -/
  kind : IoKind
  /-- What the failing side says about it. -/
  text : String
deriving DecidableEq

/-- Bytes that should have been text are not valid UTF-8. -/
def IoFailure.notUtf8 : IoFailure :=
  ⟨.invalidData, "stream did not contain valid UTF-8"⟩

/-! ## Errors -/

/-- Why a running program failed. -/
inductive RuntimeCause where
  /-- A variable was read that was never assigned. -/
  | name
  /-- A value was needed and there is none. -/
  | value
  /-- A division by zero. -/
  | arithmetic
deriving DecidableEq

/-- The word for a cause. -/
def RuntimeCause.label : RuntimeCause → String
  | .name => "NameError"
  | .value => "ValueError"
  | .arithmetic => "ArithmeticError"

/-- Everything that can go wrong. -/
inductive Error where
  /-- A character that begins no token. -/
  | lexical (line : Nat) (text : String)
  /-- A token that does not fit, given by its lexeme, or else the end of the program. -/
  | syntactic (line : Nat) (lexeme : Option String) (text : String)
  /-- The program failed while it ran. -/
  | runtime (line : Nat) (cause : RuntimeCause) (text : String)
  /-- Reading or writing failed. -/
  | io (failure : IoFailure)
  /-- An expression has an operator that is none.  No program read from text has one. -/
  | notOperator (token : Token)
deriving DecidableEq

namespace Error

/-! ## Making errors -/

/-- A character that begins no token. -/
def unexpectedCharacter (line : Nat) (c : Char) : Error :=
  .lexical line ("Unexpected character '" ++ c.toString ++ "'.")

/-- A token that does not fit. -/
def misplaced (token : Token) (text : String) : Error :=
  .syntactic token.line (some token.lexeme) text

/-- The program ends too early; `line` is the last one that was read. -/
def unexpectedEnd (line : Nat) (text : String) : Error :=
  .syntactic line none text

/-- A variable without a value. -/
def undefinedName (name : Token) : Error :=
  .runtime name.line .name ("Name '" ++ name.lexeme ++ "' is not defined.")

/-- The expression of this token gives no value. -/
def badValue (token : Token) (text : String) : Error :=
  .runtime token.line .value text

/-- The operation of this token has no result. -/
def arithmetic (token : Token) (text : String) : Error :=
  .runtime token.line .arithmetic text

/-! ## What is told about an error -/

/-- What went wrong, without kind and place. -/
def text : Error → String
  | .lexical _ text => text
  | .syntactic _ _ text => text
  | .runtime _ _ text => text
  | .io _ => "IO error"
  | .notOperator token => "'" ++ token.lexeme ++ "' is not an operator."

/-- The line of the program, if the error comes from its text. -/
def line? : Error → Option Nat
  | .lexical line _ => some line
  | .syntactic line _ _ => some line
  | .runtime line _ _ => some line
  | .io _ => none
  | .notOperator token => some token.line

/-- Why the program failed, if it failed while running. -/
def cause? : Error → Option RuntimeCause
  | .runtime _ cause _ => some cause
  | _ => none

/-- The error was found while cutting the text into tokens. -/
def isLexical : Error → Bool
  | .lexical .. => true
  | _ => false

/-- The error was found while putting tokens together. -/
def isSyntactic : Error → Bool
  | .syntactic .. => true
  | _ => false

/-- The failure of the outer world behind an error. -/
def failure? : Error → Option IoFailure
  | .io failure => some failure
  | _ => none

/-- The place of an error as it is written in front of it. -/
def place (line : Nat) : String :=
  "[line " ++ line.repr ++ "] "

/-- The error in one line: place, kind and text. -/
def describe : Error → String
  | .lexical line text => place line ++ "Error: " ++ text
  | .syntactic line (some lexeme) text => place line ++ "Error at '" ++ lexeme ++ "': " ++ text
  | .syntactic line none text => place line ++ "Error at end: " ++ text
  | .runtime line cause text => place line ++ cause.label ++ ": " ++ text
  | .io failure => "IO error: " ++ failure.text
  | e@(.notOperator token) => place token.line ++ "Error: " ++ e.text

/-! ## To the outer world and back -/

/-- An error as a failure of the outer world: its description is all that is told. -/
def toFailure (e : Error) : IoFailure :=
  ⟨.other, e.describe⟩

/-- An error after `n` turns to the outer world and back. -/
def rewrap : Nat → Error → Error
  | 0, e => e
  | n + 1, e => .io (rewrap n e).toFailure

end Error

end NumScript
