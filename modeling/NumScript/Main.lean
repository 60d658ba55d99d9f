/-
  The executable: the command line with real files and streams.

  Only the streams are handled here: the file is read if the command names one, the standard input
  is read to its end, and what `Command.perform` says is written.
-/
import NumScript.CommandLine

namespace NumScript

/-- A failure of the system in the library's terms. -/
def IoFailure.ofSystem (e : IO.Error) : IoFailure :=
  match e with
  | .noFileOrDirectory _ code details => known .notFound code details
  | .permissionDenied _ code details => known .permissionDenied code details
  | .inappropriateType _ code details => known .isADirectory code details
  | .invalidArgument _ code details => known .invalidInput code details
  | .alreadyExists _ code details => known .alreadyExists code details
  | .interrupted _ code details => known .interrupted code details
  | .resourceBusy code details => known .resourceBusy code details
  | .otherError code details => known .other code details
  | e => ⟨.other, toString e⟩
where
  /-- A failure with the number that the system gives it, which may come as its negative. -/
  known (kind : IoKind) (code : UInt32) (details : String) : IoFailure :=
    let number := if code < 0x80000000 then code else 0 - code
    ⟨kind, details.capitalize ++ " (os error " ++ number.toNat.repr ++ ")"⟩

/-- All that can still be read from a stream, put behind what was read before. -/
partial def readAll (stream : IO.FS.Stream) (before : ByteArray) : IO ByteArray := do
  let chunk ← stream.read 65536
  if chunk.isEmpty then return before
  readAll stream (before ++ chunk)

/-- The content of the file that a command reads. -/
def contentOf (path : String) : IO (Except IoFailure (List UInt8)) := do
  try
    return .ok (← IO.FS.readBinFile path).toList
  catch e =>
    return .error (.ofSystem e)

end NumScript

open NumScript in
/-- Carries out what the arguments ask for and returns the exit status. -/
def main (args : List String) : IO UInt32 := do
  let command := Command.ofArgs args
  let content ← match command.path? with
    | some path => contentOf path
    | none => pure (.ok [])
  let input ← match command with
    | .prompt | .run _ => readAll (← IO.getStdin) .empty
    | _ => pure .empty
  let ending := command.perform (fun _ => content) input.toList
  (← IO.getStdout).write ending.output.toByteArray
  (← IO.getStderr).write ending.errors.toByteArray
  return ending.status.toUInt32
