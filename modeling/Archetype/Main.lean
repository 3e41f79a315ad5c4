import Archetype.CommandLine.Run

/-!
The program: it finds out what a run of the command line asks for and runs it again, until the run
ends. Only what is new is printed each time.
-/

namespace Archetype.Main

open CommandLine

/-- An error number, which some operations give negated. -/
def errorNumber (code : UInt32) : Nat :=
  code.toInt32.toInt.natAbs

def failureOf (error : IO.Error) : FileFailure :=
  match error with
  | .noFileOrDirectory .. => .notFound
  | .permissionDenied .. => .permissionDenied
  | .inappropriateType _ code _ =>
      if errorNumber code = 21 then .isDirectory else .notDirectory
  | .invalidArgument _ code _ =>
      if errorNumber code = 36 then .nameTooLong else .other (toString error)
  | error => .other (toString error)

def readText (path : String) : IO (Except FileFailure String) := do
  try
    let bytes ← IO.FS.readBinFile path
    match String.fromUTF8? bytes with
    | some text => return .ok text
    | none => return .error .notText
  catch error => return .error (failureOf error)

def writeBytes (path : String) (bytes : List UInt8) : IO (Except FileFailure PUnit) := do
  try
    IO.FS.writeBinFile path ⟨bytes.toArray⟩
    return .ok ⟨⟩
  catch error => return .error (failureOf error)

def gained (longer shorter : String) : String :=
  String.ofList (longer.toList.drop shorter.length)

/-- Shows what a run printed beyond what was shown before, and gives all that is shown then. A run
that stopped earlier than the last one shows nothing. -/
def showGain (console shown : Console) : IO Console := do
  let stdout ← IO.getStdout
  stdout.putStr (gained console.stdout shown.stdout)
  stdout.flush
  (← IO.getStderr).putStr (gained console.stderr shown.stderr)
  return {
    stdout := if console.stdout.length < shown.stdout.length then shown.stdout else console.stdout
    stderr := if console.stderr.length < shown.stderr.length then shown.stderr else console.stderr }

partial def loop (session : Session) (shown : Console) : IO UInt32 := do
  let (ending, console) := run session
  let console ← showGain console shown
  match ending with
  | .exit code => return code.toUInt32
  | .query (.read path) =>
      loop { session with readings := (path, ← readText path) :: session.readings } console
  | .query (.write path bytes) =>
      loop { session with writings := (path, ← writeBytes path bytes) :: session.writings } console
  | .query .limit => loop { session with limit := 2 * session.limit } console
  | .query .line =>
      let line ← (← IO.getStdin).getLine
      if line.isEmpty then loop { session with closed := true } console
      else loop { session with lines := session.lines ++ [line] } console

end Archetype.Main

def main (arguments : List String) : IO UInt32 :=
  Archetype.Main.loop { arguments } {}
