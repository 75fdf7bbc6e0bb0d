import WireTree.CommandLine.Outcome

/-!
# The program

Reads the files that the arguments name, and prints what `CommandLine.run` answers.
-/

namespace WireTree.CommandLine

/-- What the file system had against a file. -/
def fileError : IO.Error → FileError
  | .noFileOrDirectory .. => .missing
  | .inappropriateType _ code _ => if code = 21 then .directory else .notDirectory
  | .permissionDenied .. => .denied
  | .invalidArgument _ code details => if code = 36 then .nameTooLong else .other details
  | error => .other (toString error)

def readFile (path : String) : IO (Except FileError Bytes) := do
  try
    return .ok (← IO.FS.readBinFile path).toList
  catch error => return .error (fileError error)

end WireTree.CommandLine

open WireTree

def main (arguments : List String) : IO UInt32 := do
  let files ← (CommandLine.paths arguments).mapM fun path => return (path, ← CommandLine.readFile path)
  let outcome := CommandLine.run arguments fun path => (files.lookup path).getD (.error .missing)
  IO.print outcome.output
  if outcome.exitCode = 2 then IO.eprintln CommandLine.usage
  outcome.error.forM fun error => IO.eprintln error
  return UInt32.ofNat outcome.exitCode
