import WireTree.Number.Digits
import WireTree.Options

/-!
# Options documents

Options are written as a TOML document. Only four keys are known, and their values are booleans and whole numbers, so a
document is taken line by line: blank, a comment, or one `key = value`. Anything else that TOML may hold (tables, dotted
keys, text, lists) cannot be an option, and a document with anything wrong in it is refused as a whole.
-/

namespace WireTree

namespace Document

/-! ### Characters -/

def isSpace (char : Char) : Bool := char == ' ' || char == '\t'

def skipSpaces (line : List Char) : List Char := line.dropWhile isSpace

/-- What comments and quoted keys may hold: no control character but the tab. -/
def isText (char : Char) : Bool :=
  char == '\t' || decide (0x20 ≤ char.toNat ∧ char.toNat ≤ 0x7E) || decide (0x80 ≤ char.toNat)

/-- What bare keys are made of. -/
def isBare (char : Char) : Bool := char.isAlphanum || char == '_' || char == '-'

/-! ### Whole numbers -/

/-- Digits behind the number read so far; an underscore may stand between two digits. -/
def moreDigits? (base : Nat) (value : Nat) : List Char → Option Nat
  | [] => some value
  | '_' :: char :: rest => do moreDigits? base (base * value + (← Digits.value? base char)) rest
  | char :: rest => do moreDigits? base (base * value + (← Digits.value? base char)) rest

/-- A number of at least one digit. -/
def digits? (base : Nat) : List Char → Option Nat
  | [] => none
  | char :: rest => do moreDigits? base (← Digits.value? base char) rest

/-- A decimal number, with no zero in front of other digits. -/
def decimal? : List Char → Option Nat
  | ['0'] => some 0
  | '0' :: _ => none
  | digits => digits? 10 digits

/-- A whole number: decimal with or without sign, or with a mark for base 16, 8 or 2. -/
def integer? : List Char → Option Int
  | '+' :: digits => (decimal? digits).map Int.ofNat
  | '-' :: digits => (decimal? digits).map fun value => -(value : Int)
  | '0' :: 'x' :: digits => (digits? 16 digits).map Int.ofNat
  | '0' :: 'o' :: digits => (digits? 8 digits).map Int.ofNat
  | '0' :: 'b' :: digits => (digits? 2 digits).map Int.ofNat
  | digits => (decimal? digits).map Int.ofNat

/-! ### Values -/

/-- A value that an option can have. -/
inductive Setting where
  | boolean (value : Bool)
  | integer (value : Int)
deriving DecidableEq, Repr

/-- Reads a value. Whole numbers have to fit into 64 bits with a sign. -/
def setting? (token : List Char) : Option Setting :=
  if token = "true".toList then some (.boolean true)
  else if token = "false".toList then some (.boolean false)
  else do
    let value ← integer? token
    if Int64.minValue.toInt ≤ value ∧ value ≤ Int64.maxValue.toInt then return .integer value else none

/-! ### Keys -/

/-- The character whose number the hex digits write. -/
def numbered? (digits : List Char) : Option Char := do
  let code ← Digits.read? 16 digits
  if code.isValidChar then return Char.ofNat code else none

/-- The character that a letter behind a backslash means. -/
def escaped? : Char → Option Char
  | 'b' => some '\x08'
  | 't' => some '\t'
  | 'n' => some '\n'
  | 'f' => some '\x0c'
  | 'r' => some '\r'
  | '"' => some '"'
  | '\\' => some '\\'
  | _ => none

/-- The rest of a key between double quotes, and what follows it. -/
def quotedKey? : List Char → Option (List Char × List Char)
  | [] => none
  | '"' :: rest => some ([], rest)
  | '\\' :: 'u' :: a :: b :: c :: d :: rest => do
    let char ← numbered? [a, b, c, d]
    let (key, rest) ← quotedKey? rest
    return (char :: key, rest)
  | '\\' :: 'U' :: a :: b :: c :: d :: e :: f :: g :: h :: rest => do
    let char ← numbered? [a, b, c, d, e, f, g, h]
    let (key, rest) ← quotedKey? rest
    return (char :: key, rest)
  | '\\' :: letter :: rest => do
    let char ← escaped? letter
    let (key, rest) ← quotedKey? rest
    return (char :: key, rest)
  | char :: rest =>
    if isText char && char != '\\' then do
      let (key, rest) ← quotedKey? rest
      return (char :: key, rest)
    else none

/-- A bare key, or one in quotes of either kind, and what follows it. -/
def key? : List Char → Option (List Char × List Char)
  | '"' :: rest => quotedKey? rest
  | '\'' :: rest =>
    let (key, rest) := rest.span fun char => isText char && char != '\''
    match rest with
    | '\'' :: rest => some (key, rest)
    | _ => none
  | line =>
    let (key, rest) := line.span isBare
    if key.isEmpty then none else some (key, rest)

/-! ### Lines -/

/-- Whether a line ends here, but for spaces and a comment. -/
def endsLine (line : List Char) : Bool :=
  match skipSpaces line with
  | [] => true
  | char :: comment => char == '#' && comment.all isText

/-- A line of the document: `none` within if it sets nothing. -/
def line? (line : List Char) : Option (Option (String × Setting)) :=
  if endsLine line then some none
  else do
    let (key, rest) ← key? (skipSpaces line)
    match skipSpaces rest with
    | '=' :: rest =>
      let (token, rest) := (skipSpaces rest).span fun char => isBare char || char == '+'
      let value ← setting? token
      if endsLine rest then return some (String.ofList key, value) else none
    | _ => none

/-- The text cut at line feeds, each with or without a carriage return before it. -/
def lines (text : List Char) : List (List Char) :=
  let segments := text.splitOn '\n'
  segments.dropLast.map (fun line => if line.getLast? = some '\r' then line.dropLast else line) ++
    segments.getLast?.toList

/-! ### Options -/

/-- Takes over one setting, if the key is known, has such values and has not been set before. -/
def set? (options : Options) (seen : List String) (key : String) (setting : Setting) : Option Options :=
  if seen.contains key then none
  else
    match key, setting with
    | "treat_bytes_as_string", .boolean value => some { options with bytesAsString := value }
    | "guess_unknown_as_string", .boolean value => some { options with guessString := value }
    | "show_all_candidate_types", .boolean value => some { options with allCandidates := value }
    | "max_depth", .integer (.ofNat value) => some { options with maxDepth := value }
    | _, _ => none

def setAll? (options : Options) (seen : List String) : List (String × Setting) → Option Options
  | [] => some options
  | (key, setting) :: rest => do setAll? (← set? options seen key setting) (key :: seen) rest

end Document

/-- Reads options from a document, which may begin with a byte order mark. -/
def Options.ofDocument? (text : String) : Option Options := do
  let text := match text.toList with
    | '\uFEFF' :: rest => rest
    | text => text
  let settings ← (Document.lines text).mapM Document.line?
  Document.setAll? {} [] (settings.filterMap id)

end WireTree
