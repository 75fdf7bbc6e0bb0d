import WireTree.Number.Digits

/-!
# Requests

Arguments are read from left to right, and the first one that is wrong or that asks for help ends it. Each flag and
option may be given once, and there is one input. What stands behind a bare `--` is input whatever it looks like.
-/

namespace WireTree

/-- What is either given or not. -/
inductive Flag where
  | hex
  | bytesAsString
  | guessString
  | allTypes
  | verbose
deriving DecidableEq, Repr

/-- What the arguments ask for besides the input. -/
structure Settings where
  flags : List Flag := []
  optionsFile : Option String := none
  offset : Option Nat := none
  length : Option Nat := none
deriving DecidableEq, Repr

/-- The arguments read so far. -/
structure Arguments extends Settings where
  input : Option String := none
deriving DecidableEq, Repr

/-- What is asked for when all arguments are read. -/
structure Request extends Settings where
  input : String
deriving DecidableEq, Repr

/-- Why the arguments are not read to their end. -/
inductive Interruption where
  | help
  | misuse
deriving DecidableEq, Repr

namespace CommandLine

/-- The flag of a name, without its two dashes. -/
def flagNamed? : String → Option Flag
  | "hex" => some .hex
  | "bytes-as-string" => some .bytesAsString
  | "guess-string" => some .guessString
  | "all-types" => some .allTypes
  | "verbose" => some .verbose
  | _ => none

/-- A number in decimal below 2^64; a plus sign may stand before it. -/
def number? (text : String) : Option Nat := do
  let value ← match text.toList with
    | '+' :: digits => Digits.read? 10 digits
    | digits => Digits.read? 10 digits
  if value < UInt64.size then return value else none

/-- Whether an argument stands for itself and is no option; a lone dash does. -/
def isPlain (argument : String) : Bool := argument.toList.head? != some '-' || argument == "-"

/-- A flag may be given once. -/
def addFlag (arguments : Arguments) (flag : Flag) : Except Interruption Arguments :=
  if arguments.flags.contains flag then .error .misuse
  else .ok { arguments with flags := flag :: arguments.flags }

/-- The input is one path that is not empty. -/
def addInput (arguments : Arguments) (path : String) : Except Interruption Arguments :=
  if arguments.input.isSome || path.isEmpty then .error .misuse
  else .ok { arguments with input := some path }

/-- Whether the name, without its two dashes, is of an option with a value. -/
def takesValue (name : String) : Bool := name == "options" || name == "offset" || name == "length"

/-- Sets an option with a value, which may be given once. -/
def addValue (arguments : Arguments) (name value : String) : Except Interruption Arguments :=
  match name with
  | "options" =>
    if arguments.optionsFile.isSome || value.isEmpty then .error .misuse
    else .ok { arguments with optionsFile := some value }
  | "offset" =>
    match arguments.offset, number? value with
    | none, some number => .ok { arguments with offset := some number }
    | _, _ => .error .misuse
  | "length" =>
    match arguments.length, number? value with
    | none, some number => .ok { arguments with length := some number }
    | _, _ => .error .misuse
  | _ => .error .misuse

/-- Sets a flag by its name, without its two dashes. -/
def addNamed (arguments : Arguments) (name : String) : Except Interruption Arguments :=
  match flagNamed? name with
  | some flag => addFlag arguments flag
  | none => if name = "help" then .error .help else .error .misuse

/-- Sets the flags of the letters behind one dash. -/
def addLetters (arguments : Arguments) : List Char → Except Interruption Arguments
  | [] => .ok arguments
  | 'v' :: rest => do addLetters (← addFlag arguments .verbose) rest
  | 'h' :: _ => .error .help
  | _ :: _ => .error .misuse

/-- The request, if there is an input. -/
def complete (arguments : Arguments) : Except Interruption Request :=
  match arguments.input with
  | some input => .ok { arguments.toSettings with input := input }
  | none => .error .misuse

/-- An argument that begins with a dash. -/
inductive Dashed where
  | letters (letters : List Char)
  | named (name : String)
  | assigned (name value : String)
deriving DecidableEq, Repr

/-- Takes apart an argument that is not plain. -/
def Dashed.ofArgument (argument : String) : Dashed :=
  match argument.toList with
  | '-' :: '-' :: rest =>
    let (name, value) := rest.span (· != '=')
    match value with
    | [] => .named (String.ofList name)
    | _ :: value => .assigned (String.ofList name) (String.ofList value)
  | cluster => .letters cluster.tail

def parseFrom (arguments : Arguments) : List String → Except Interruption Request
  | [] => complete arguments
  | argument :: rest =>
    if isPlain argument then do parseFrom (← addInput arguments argument) rest
    else if argument = "--" then do complete (← rest.foldlM addInput arguments)
    else
      match Dashed.ofArgument argument with
      | .letters letters => do parseFrom (← addLetters arguments letters) rest
      | .assigned name value => do parseFrom (← addValue arguments name value) rest
      | .named name =>
        if takesValue name then
          match rest with
          | value :: rest =>
            if isPlain value then do parseFrom (← addValue arguments name value) rest
            else .error .misuse
          | [] => .error .misuse
        else do parseFrom (← addNamed arguments name) rest

def parse (arguments : List String) : Except Interruption Request := parseFrom {} arguments

end CommandLine

end WireTree
