import CreditScorecard.CommandLine.Run
import CreditScorecard.Timestamp.Text
import Std.Time.DateTime.Timestamp

/-! # The program

Reads the files that a command names, runs it, and prints its response.
-/

namespace CreditScorecard.CommandLine

/-- The code and the description of an error of the system. -/
def systemError? : IO.Error → Option (UInt32 × String)
  | .alreadyExists _ code details | .interrupted _ code details
  | .noFileOrDirectory _ code details | .invalidArgument _ code details
  | .permissionDenied _ code details | .resourceExhausted _ code details
  | .inappropriateType _ code details | .noSuchThing _ code details
  | .otherError code details | .resourceBusy code details | .resourceVanished code details
  | .unsupportedOperation code details | .hardwareFault code details
  | .unsatisfiedConstraints code details | .illegalOperation code details
  | .protocolError code details | .timeExpired code details => some (code, details)
  | .unexpectedEof | .userError _ => none

def fileErrorOf (error : IO.Error) : FileError :=
  match systemError? error with
  | some (code, details) =>
    -- opening a file gives the number of an error negated, reading it as it is
    let number := (min code (-code)).toNat
    (FileError.ofNumber? number).getD
      (.other (details ++ " (os error " ++ Nat.repr number ++ ")"))
  | none => .other (toString error)

/-- Reads a file that holds Unicode text. -/
def readFile (path : String) : IO (Except FileError String) := do
  try
    let bytes ← IO.FS.readBinFile path
    pure ((String.fromUTF8? bytes).elim (.error .notUnicode) .ok)
  catch error =>
    pure (.error (fileErrorOf error))

/-- Reads files one after the other. -/
def readFiles : List String → IO (List (String × Except FileError String))
  | [] => pure []
  | path :: paths => do
    let contents ← readFile path
    pure ((path, contents) :: (← readFiles paths))

/-- The present moment. -/
def currentMoment : IO String := do
  let now ← Std.Time.Timestamp.now
  let nanos := now.toNanosecondsSinceUnixEpoch.val
  match Timestamp.ofUnix? (nanos / 1000000000) (nanos % 1000000000).toNat with
  | some t => pure t.text
  | none => pure ""

def pathsOf (args : List String) : List String :=
  match request? args with
  | some (.run _ command) => command.paths
  | _ => []

end CreditScorecard.CommandLine

open CreditScorecard CreditScorecard.CommandLine in
def main (args : List String) : IO UInt32 := do
  let contents ← readFiles (pathsOf args)
  let files : Files := fun path => (contents.lookup path).getD (.error .notFound)
  let moment ← currentMoment
  match respond? files moment args with
  | none =>
    IO.eprint usage
    pure 2
  | some response =>
    for line in response.log do
      IO.eprintln (moment ++ "  " ++ line)
    IO.print response.output
    if let some message := response.error then
      IO.eprintln ("Error: " ++ message)
    pure response.exit.toUInt32
