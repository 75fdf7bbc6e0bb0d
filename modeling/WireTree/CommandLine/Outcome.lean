import WireTree.CommandLine.Request
import WireTree.Decode.Message
import WireTree.Options.Document
import WireTree.Text.Blank
import WireTree.Tree.Text

/-!
# Outcomes

A request names its files: the options first, then the input. `Files` says what reading them came to, and given that
`CommandLine.run` is all that the program answers: the text of the decoded message, or the first thing that went wrong, or
how to use it.
-/

namespace WireTree

/-- Why a file could not be read. -/
inductive FileError where
  | missing
  | directory
  | notDirectory
  | nameTooLong
  | denied
  | other (description : String)
deriving DecidableEq, Repr

def FileError.message : FileError → String
  | missing => "No such file or directory (os error 2)"
  | directory => "Is a directory (os error 21)"
  | notDirectory => "Not a directory (os error 20)"
  | nameTooLong => "File name too long (os error 36)"
  | denied => "Permission denied (os error 13)"
  | other description => description

/-- What reading the file at a path came to. -/
abbrev Files := String → Except FileError Bytes

/-- Why a request ends without a message. -/
inductive Failure where
  | optionsUnreadable (path description : String)
  | optionsInvalid
  | inputUnreadable (path : String)
  | hexNotText
  | hexInvalid
deriving DecidableEq, Repr

def Failure.message : Failure → String
  | optionsUnreadable path description => s!"Failed to read options file {path}: {description}"
  | optionsInvalid => "Invalid options"
  | inputUnreadable path => s!"Failed to read {path}"
  | hexNotText => "Hex input is not text"
  | hexInvalid => "Invalid hex input"

namespace Request

/-- The options of the file, with those on that a flag asks for. -/
def options (request : Request) (files : Files) : Except Failure Options := do
  let options ← match request.optionsFile with
    | none => pure {}
    | some path =>
      match files path with
      | .error error => throw (.optionsUnreadable path error.message)
      | .ok content =>
        match Utf8.text? content with
        | none => throw (.optionsUnreadable path "stream did not contain valid UTF-8")
        | some text =>
          match Options.ofDocument? text with
          | none => throw .optionsInvalid
          | some options => pure options
  return { options with
    bytesAsString := options.bytesAsString || request.flags.contains .bytesAsString
    guessString := options.guessString || request.flags.contains .guessString
    allCandidates := options.allCandidates || request.flags.contains .allTypes }

/-- The bytes that hex text stands for; white space in it means nothing. -/
def unhex (content : Bytes) : Except Failure Bytes :=
  match Utf8.text? content with
  | none => .error .hexNotText
  | some text =>
    match Hex.decode? (text.toList.filter fun char => !Blank.isBlank char) with
    | none => .error .hexInvalid
    | some bytes => .ok bytes

def data (request : Request) (files : Files) : Except Failure Bytes :=
  match files request.input with
  | .error _ => .error (.inputUnreadable request.input)
  | .ok content => if request.flags.contains .hex then unhex content else .ok content

/-- The decoded message. A missing length reaches to the end of the data. -/
def message (request : Request) (files : Files) : Except Failure Message := do
  let options ← request.options files
  let data ← request.data files
  let offset := request.offset.getD 0
  let length := request.length.getD (data.length - offset)
  return Message.decodeWindow options {} none data offset length

end Request

/-- What the program ends with: its exit code, what it prints, and what it reports as an error. -/
structure Outcome where
  exitCode : Nat
  output : String
  error : Option String
deriving DecidableEq, Repr

namespace CommandLine

def usage : String := "Usage: protospan [OPTIONS] <INPUT>"

/-- The lines that explain the arguments. -/
def helpLines : List String :=
  ["Decode protocol buffer payloads without a schema",
    "",
    usage,
    "",
    "Arguments:",
    "  <INPUT>  Payload file",
    "",
    "Options:",
    "      --hex              The input file holds hex text instead of raw bytes",
    "      --options <FILE>   TOML file with decode options",
    "      --bytes-as-string  Display bytes fields as strings",
    "      --guess-string     Guess length-delimited fields to be strings",
    "      --all-types        List every type each field could be",
    "      --offset <OFFSET>  Offset of the message in the payload [default: 0]",
    "      --length <LENGTH>  Length of the message (default: rest of the payload)",
    "  -v, --verbose          Log decoding details",
    "  -h, --help             Print help"]

def help : String := String.join (helpLines.map (· ++ "\n"))

/-- The text up to the first line break. -/
def firstLine (text : String) : String :=
  let line := text.toList.takeWhile (· != '\n')
  String.ofList (if line.getLast? = some '\r' then line.dropLast else line)

/-- A failure is reported in one line: what stands behind a line break in a path is left out. -/
def report (failure : Failure) : String := firstLine ("Error: " ++ failure.message)

/-- What the program answers to its arguments. -/
def run (arguments : List String) (files : Files) : Outcome :=
  match parse arguments with
  | .error .help => ⟨0, help, none⟩
  | .error .misuse => ⟨2, "", none⟩
  | .ok request =>
    match request.message files with
    | .ok message => ⟨0, message.text, none⟩
    | .error failure => ⟨1, "", some (report failure)⟩

/-- The files that the arguments name, in the order in which they are needed. -/
def paths (arguments : List String) : List String :=
  match parse arguments with
  | .error _ => []
  | .ok request => request.optionsFile.toList ++ [request.input]

end CommandLine

end WireTree
