import ModuleScaffold.Json
import ModuleScaffold.Text.Quoted

/-! # What can be wrong with a document

A reader stops at the first fault. It says what is wrong, on the way to which value, and at which byte. -/

namespace ModuleScaffold.Json

/-- What stands where something else is wanted. -/
inductive Found where
  | null
  | bool (b : Bool)
  | number (n : Number)
  | string (s : String)
  | sequence
  | map
  deriving DecidableEq, Repr

/-- A value as messages name it. -/
def Found.describe : Found → String
  | null => "null"
  | bool b => "boolean `" ++ (if b then "true" else "false") ++ "`"
  | number (.whole n) => "integer `" ++ toString n.toNat ++ "`"
  | number (.negative n) => "integer `-" ++ toString n.toNat ++ "`"
  | number (.decimal isNegative significand exponent) =>
    "floating point `"
      ++ Number.style.text ((Number.toFloat? isNegative significand exponent).getD 0) ++ "`"
  | string s => "string " ++ Text.Quoted.encode s
  | sequence => "sequence"
  | map => "map"

/-- Why a document cannot be read. -/
inductive Reason where
  | endInValue | endInObject | endInList | endInString
  | expectedValue | expectedIdent | expectedColon | expectedCommaOrBrace | expectedCommaOrBracket
  | trailingComma | trailingCharacters | keyNotString
  | invalidNumber | numberOutOfRange
  | invalidEscape | controlCharacter | endOfHexEscape | loneSurrogate
  | recursionLimit
  | duplicateField (name : String)
  | invalidType (found : Found) (wanted : String)
  | invalidValue (found : Found) (wanted : String)
  deriving DecidableEq, Repr

/-- The words for a reason. -/
def Reason.describe : Reason → String
  | endInValue => "EOF while parsing a value"
  | endInObject => "EOF while parsing an object"
  | endInList => "EOF while parsing a list"
  | endInString => "EOF while parsing a string"
  | expectedValue => "expected value"
  | expectedIdent => "expected ident"
  | expectedColon => "expected `:`"
  | expectedCommaOrBrace => "expected `,` or `\x7d`"
  | expectedCommaOrBracket => "expected `,` or `]`"
  | trailingComma => "trailing comma"
  | trailingCharacters => "trailing characters"
  | keyNotString => "key must be a string"
  | invalidNumber => "invalid number"
  | numberOutOfRange => "number out of range"
  | invalidEscape => "invalid escape"
  | controlCharacter => "control character (\\u0000-\\u001F) found while parsing a string"
  | endOfHexEscape => "unexpected end of hex escape"
  | loneSurrogate => "lone leading surrogate in hex escape"
  | recursionLimit => "recursion limit exceeded"
  | duplicateField name => "duplicate field `" ++ name ++ "`"
  | invalidType found wanted => "invalid type: " ++ found.describe ++ ", expected " ++ wanted
  | invalidValue found wanted => "invalid value: " ++ found.describe ++ ", expected " ++ wanted

/-- One step from a value to a part of it. -/
inductive Step where
  | key (name : String)
  | index (i : Nat)
  /-- To a member whose key could not be read. -/
  | unknownKey
  deriving DecidableEq, Repr

/-- The text of the steps that follow others. -/
def Step.describeRest : List Step → String
  | [] => ""
  | key name :: rest => "." ++ name ++ describeRest rest
  | index i :: rest => "[" ++ toString i ++ "]" ++ describeRest rest
  | unknownKey :: rest => ".?" ++ describeRest rest

/-- The text of a path from the root; the root itself is a point. -/
def Step.describe : List Step → String
  | [] => "."
  | key name :: rest => name ++ describeRest rest
  | index i :: rest => "[" ++ toString i ++ "]" ++ describeRest rest
  | unknownKey :: rest => "?" ++ describeRest rest

/-- A fault as a reader meets it: `ahead` bytes beyond the start of `rest`, on the way along `path`. -/
structure Fault where
  reason : Reason
  path : List Step
  rest : List Char
  ahead : Nat

/-- The same fault, seen from one step further out. -/
def Fault.under (step : Step) (f : Fault) : Fault := { f with path := step :: f.path }

/-- A reader consumes the front of a text. -/
abbrev Reader (α : Type) := List Char → Except Fault (α × List Char)

/-- Stops with a fault `ahead` bytes beyond the start of `rest`. -/
def stop (reason : Reason) (rest : List Char) (ahead : Nat) : Except Fault α :=
  .error ⟨reason, [], rest, ahead⟩

/-- Stops at the next character, which has been looked at but not consumed. -/
def stopAt (reason : Reason) (rest : List Char) : Except Fault α := stop reason rest 1

/-- A fault found while reading the part that `step` leads to. -/
def inside (step : Step) : Except Fault α → Except Fault α
  | .ok a => .ok a
  | .error f => .error (f.under step)

/-- A place in a text: the line, from one, and the bytes before it in its line. -/
structure Position where
  line : Nat
  column : Nat
  deriving DecidableEq, Repr

/-- The place that lies `bytes` beyond `p`, at which `s` begins. -/
def Position.advance (p : Position) (bytes : Nat) : List Char → Position
  | [] => p
  | c :: rest =>
    if bytes = 0 then p
    else if c = '\n' then Position.advance ⟨p.line + 1, 0⟩ (bytes - 1) rest
    else
      Position.advance ⟨p.line, p.column + min (Text.width c) bytes⟩ (bytes - Text.width c) rest

/-- A fault as it is reported: with its place in the whole text. -/
structure Problem where
  path : List Step
  reason : Reason
  position : Position
  deriving DecidableEq, Repr

/-- The report of a fault in `input`. A place beyond the end is the end. -/
def Fault.report (input : List Char) (f : Fault) : Problem :=
  let consumed := Text.byteLength input - Text.byteLength f.rest + f.ahead
  ⟨f.path, f.reason, Position.advance ⟨1, 0⟩ consumed input⟩

/-- The reason of a problem with its place. -/
def Problem.message (p : Problem) : String :=
  p.reason.describe ++ " at line " ++ toString p.position.line ++ " column " ++ toString p.position.column

end ModuleScaffold.Json
