import ModuleScaffold.Text.Split
import ModuleScaffold.Text.Character

/-! # Settings documents

The part of TOML that settings need: one `key = value` per line, where a value is a string or a truth value.
Nothing else could be a setting, so nothing else is read. -/

namespace ModuleScaffold.Settings

/-- The value of an entry. -/
inductive Value where
  | text (s : String)
  | flag (b : Bool)
  deriving DecidableEq, Repr

namespace Document

/-! ## Characters -/

/-- Whether a character is a blank within a line. -/
def isGap (c : Char) : Bool := c == ' ' || c == '\t'

/-- Drops the blanks within a line. -/
def gap (s : List Char) : List Char := s.dropWhile isGap

/-- Whether a control character may not stand in a document; the tab may. -/
def isForbidden (c : Char) : Bool := (c < ' ' && c != '\t') || c == '\x7f'

/-- Whether a character may stand in a key without quotes. -/
def isBare (c : Char) : Bool := Text.isLetter c || Text.isDigit c || c == '_' || c == '-'

/-- Goes behind a line ending. -/
def newline? : List Char → Option (List Char)
  | '\n' :: rest => some rest
  | '\r' :: '\n' :: rest => some rest
  | _ => none

/-! ## Strings -/

/-- The character that a backslash and one letter stand for. -/
def shortEscape? (c : Char) : Option Char :=
  if c = 'b' then some '\x08'
  else if c = 't' then some '\t'
  else if c = 'n' then some '\n'
  else if c = 'f' then some '\x0c'
  else if c = 'r' then some '\r'
  else if c = 'e' then some '\x1b'
  else if c = '"' then some '"'
  else if c = '\\' then some '\\'
  else none

/-- Reads `count` hexadecimal digits into `value`. -/
def hexDigits? (count value : Nat) (s : List Char) : Option (Nat × List Char) :=
  match count, s with
  | 0, s => some (value, s)
  | _ + 1, [] => none
  | count + 1, c :: rest =>
    match Text.hexValue? c with
    | some d => hexDigits? count (value * 16 + d) rest
    | none => none

/-- The number of digits of an escape with hexadecimal digits. -/
def escapeWidth? (c : Char) : Option Nat :=
  if c = 'x' then some 2 else if c = 'u' then some 4 else if c = 'U' then some 8 else none

/-- Reads an escape whose backslash has been consumed. -/
def escape? : List Char → Option (Char × List Char)
  | [] => none
  | c :: rest =>
    match escapeWidth? c with
    | some width =>
      match hexDigits? width 0 rest with
      | some (n, rest) =>
        if n < 0xD800 || (0xDFFF < n && n < 0x110000) then some (Char.ofNat n, rest) else none
      | none => none
    | none => (shortEscape? c).map fun x => (x, rest)

/-- A character before the rest of a string. -/
def consTo (c : Char) (s : Option (List Char × List Char)) : Option (List Char × List Char) :=
  s.map fun (cs, rest) => (c :: cs, rest)

/-- Reads a string with escapes whose opening quote has been consumed. -/
def basic? (s : List Char) : Nat → Option (List Char × List Char)
  | 0 => none
  | steps + 1 =>
    match s with
    | [] => none
    | '"' :: rest => some ([], rest)
    | '\\' :: rest =>
      match escape? rest with
      | some (c, rest) => consTo c (basic? rest steps)
      | none => none
    | c :: rest => if isForbidden c then none else consTo c (basic? rest steps)

/-- Reads a string without escapes whose opening quote has been consumed. -/
def literal? : List Char → Option (List Char × List Char)
  | [] => none
  | c :: rest => if c = '\'' then some ([], rest) else if isForbidden c then none else consTo c (literal? rest)

/-- Drops blanks and line endings. -/
def dropBreaks : List Char → List Char
  | '\r' :: '\n' :: rest => dropBreaks rest
  | c :: rest => if isGap c || c = '\n' then dropBreaks rest else c :: rest
  | [] => []

/-- Goes behind a line ending that a backslash hides, and behind the blank lines and blanks after it. -/
def hiddenBreak? (s : List Char) : Option (List Char) := (newline? (gap s)).map dropBreaks

/-- Reads a string over several lines, behind its opening quotes. Line endings stay as they are written, and up
to two quotes may stand before the three that end it. -/
def multiline? (quote : Char) (escapes : Bool) (s : List Char) : Nat → Option (List Char × List Char)
  | 0 => none
  | steps + 1 =>
    match s with
    | [] => none
    | '\r' :: '\n' :: rest => consTo '\r' (consTo '\n' (multiline? quote escapes rest steps))
    | '\n' :: rest => consTo '\n' (multiline? quote escapes rest steps)
    | c :: rest =>
      if c = quote then
        match Text.after? [quote, quote] rest with
        | some behind =>
          let further := behind.takeWhile (· == quote)
          if further.length ≤ 2 then some (further, behind.drop further.length) else none
        | none => consTo c (multiline? quote escapes rest steps)
      else if c = '\\' && escapes then
        match hiddenBreak? rest with
        | some rest => multiline? quote escapes rest steps
        | none =>
          match escape? rest with
          | some (x, rest) => consTo x (multiline? quote escapes rest steps)
          | none => none
      else if isForbidden c then none
      else consTo c (multiline? quote escapes rest steps)

/-- Reads a string over several lines; a line ending directly behind the opening quotes does not count. -/
def multilineBody? (quote : Char) (escapes : Bool) (s : List Char) : Option (List Char × List Char) :=
  let s := (newline? s).getD s
  multiline? quote escapes s (s.length + 1)

/-- Reads a string of any of the four kinds. -/
def string? (s : List Char) : Option (List Char × List Char) :=
  match s with
  | '"' :: '"' :: '"' :: rest => multilineBody? '"' true rest
  | '"' :: rest => basic? rest (rest.length + 1)
  | '\'' :: '\'' :: '\'' :: rest => multilineBody? '\'' false rest
  | '\'' :: rest => literal? rest
  | _ => none

/-! ## Entries -/

/-- Reads the key of an entry. -/
def key? (s : List Char) : Option (List Char × List Char) :=
  match s with
  | '"' :: rest => basic? rest (rest.length + 1)
  | '\'' :: rest => literal? rest
  | other =>
    let key := other.takeWhile isBare
    if key.isEmpty then none else some (key, other.dropWhile isBare)

/-- Reads the value of an entry. -/
def value? (s : List Char) : Option (Value × List Char) :=
  match Text.after? "true".toList s with
  | some rest => some (.flag true, rest)
  | none =>
    match Text.after? "false".toList s with
    | some rest => some (.flag false, rest)
    | none => (string? s).map fun (text, rest) => (.text (String.ofList text), rest)

/-- Reads `key = value`. -/
def entry? (s : List Char) : Option ((String × Value) × List Char) :=
  match key? s with
  | none => none
  | some (key, rest) =>
    match gap rest with
    | '=' :: rest => (value? (gap rest)).map fun (value, rest) => ((String.ofList key, value), rest)
    | _ => none

/-- Drops a comment. -/
def afterComment : List Char → List Char
  | '#' :: rest => rest.dropWhile (!isForbidden ·)
  | other => other

/-- Goes behind the rest of a line that holds nothing more than a comment, or to the end of the text. -/
def lineRest? (s : List Char) : Option (List Char) :=
  match afterComment (gap s) with
  | [] => some []
  | other => newline? other

/-- Reads the entries of a document, one line after the other. -/
def entriesFrom? (s : List Char) : Nat → Option (List (String × Value))
  | 0 => none
  | steps + 1 =>
    if s.isEmpty then some []
    else
      match lineRest? s with
      | some rest => entriesFrom? rest steps
      | none =>
        match entry? (gap s) with
        | none => none
        | some (entry, rest) =>
          match lineRest? rest with
          | none => none
          | some rest => (entriesFrom? rest steps).map (entry :: ·)

/-- Reads the entries of a document. A byte order mark before them does not count. -/
def entries? (s : List Char) : Option (List (String × Value)) :=
  let s := match s with
    | '\uFEFF' :: rest => rest
    | other => other
  entriesFrom? s (s.length + 1)

end Document
end ModuleScaffold.Settings
