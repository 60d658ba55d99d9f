/-
  The command line.

  Without arguments the standard input is a session: its lines are programs, and they may read
  further lines of it.  With a path the file is run as a program that reads the standard input, and
  with `--ast` before the path its tree is written instead.

  All of this is a function of the arguments, the file and the input: it says what is written to the
  two outputs and which exit status is left behind.  The input is taken not to be a terminal: if it
  were one, a program in a file would show `> ` before it reads a number, and as it is not, such a
  program shows nothing.  The two outputs are taken never to fail.
-/
import NumScript.Session.Prompt
import NumScript.Tree.Outline

namespace NumScript

/-- What the command line asks for. -/
inductive Command where
  /-- To run the lines of the input. -/
  | prompt
  /-- To write the tree of the program in a file. -/
  | outline (path : String)
  /-- To run the program in a file. -/
  | run (path : String)
  /-- Nothing that is known. -/
  | unknown

namespace Command

/-- What some arguments ask for.  After `--ast` any argument is a path; alone, only one that does
    not look like an option. -/
def ofArgs : List String → Command
  | [] => .prompt
  | ["--ast", path] => .outline path
  | [path] => if "--".toList.isPrefixOf path.toList then .unknown else .run path
  | _ => .unknown

/-- The file that a command reads. -/
def path? : Command → Option String
  | .outline path => some path
  | .run path => some path
  | _ => none

end Command

/-- What a command leaves behind. -/
structure Ending where
  /-- The exit status. -/
  status : UInt8 := 0
  /-- What was written to the standard output. -/
  output : List UInt8 := []
  /-- What was written to the standard error output. -/
  errors : List UInt8 := []

/-- The exit status for an error: bad programs, failing programs and a failing outer world are told
    apart. -/
def Error.status : Error → UInt8
  | .lexical .. | .syntactic .. => 65
  | .runtime .. | .notOperator _ => 70
  | .io _ => 74

namespace Command

/-- What is shown before a program reads a number, if programs are typed in. -/
def inputPrompt : String :=
  "? "

/-- How to use the program. -/
def usage : String :=
  "Usage: npl [--ast] [script]\n"

/-- The ending of a command that came to a result: an error is described after everything else
    that was told. -/
def conclude (result : Except Error Unit) (output errors : List UInt8) : Ending :=
  match result with
  | .ok _ => { output, errors }
  | .error e =>
    { status := e.status, output, errors := errors ++ Text.encode (e.describe ++ "\n") }

/-- The program in a file with this content. -/
def load (content : Except IoFailure (List UInt8)) : Except Error Program :=
  match content with
  | .error failure => .error (.io failure)
  | .ok bytes =>
    match Text.decode? bytes with
    | none => .error (.io .notUtf8)
    | some source => Program.ofSource source

/-- Carries out a command, given what the files hold and what stands in the input. -/
def perform (command : Command) (file : String → Except IoFailure (List UInt8))
    (input : List UInt8) : Ending :=
  let session : Session := { reader := { bytes := input } }
  match command with
  | .prompt =>
    let ended := { session with prompt := some inputPrompt }.runPrompt {}
    conclude ended.result ended.session.writer.written ended.errors.written
  | .outline path =>
    match load (file path) with
    | .ok p => { output := Text.encode (p.outline ++ "\n") }
    | .error e => conclude (.error e) [] []
  | .run path =>
    match load (file path) with
    | .ok p =>
      match p.run session with
      | .ok _ s => conclude (.ok ()) s.writer.written []
      | .error e s => conclude (.error e) s.writer.written []
    | .error e => conclude (.error e) [] []
  | .unknown => { status := 64, errors := Text.encode usage }

end Command

end NumScript
