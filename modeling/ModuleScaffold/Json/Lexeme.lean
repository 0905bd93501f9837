import ModuleScaffold.Json.Fault

/-! # Words, strings and numbers of a document -/

namespace ModuleScaffold.Json

/-- The characters that may stand between the parts of a document. -/
def isSpace (c : Char) : Bool := c == ' ' || c == '\n' || c == '\t' || c == '\r'

/-- The text without the spaces before its next part. -/
def skipSpaces (s : List Char) : List Char := s.dropWhile isSpace

/-- Reads the remaining characters of `null`, `true` or `false`. -/
def expectWord : List Char → List Char → Except Fault (List Char)
  | [], s => .ok s
  | _ :: _, [] => stop .endInValue [] 0
  | w :: ws, c :: rest => if w = c then expectWord ws rest else stop .expectedIdent (c :: rest) 1

/-! ## Strings -/

/-- The code unit of four hexadecimal digits. -/
def codeUnit? (a b c d : Char) : Option Nat :=
  match Text.hexValue? a, Text.hexValue? b, Text.hexValue? c, Text.hexValue? d with
  | some a, some b, some c, some d => some (((a * 16 + b) * 16 + c) * 16 + d)
  | _, _, _, _ => none

/-- Whether a code unit is the first of a pair. -/
def isLeading (n : Nat) : Bool := 0xD800 ≤ n && n ≤ 0xDBFF

/-- Whether a code unit is the second of a pair. -/
def isTrailing (n : Nat) : Bool := 0xDC00 ≤ n && n ≤ 0xDFFF

/-- The character of a pair of code units. -/
def paired (leading trailing : Nat) : Char :=
  Char.ofNat ((leading - 0xD800) * 0x400 + (trailing - 0xDC00) + 0x10000)

/-- The character that a backslash and one letter stand for. -/
def shortEscape? (c : Char) : Option Char :=
  if c = '"' then some '"'
  else if c = '\\' then some '\\'
  else if c = '/' then some '/'
  else if c = 'b' then some '\x08'
  else if c = 'f' then some '\x0c'
  else if c = 'n' then some '\n'
  else if c = 'r' then some '\r'
  else if c = 't' then some '\t'
  else none

/-- The fault of a `\u` whose next four bytes, at `s`, are no hexadecimal digits. -/
def badUnit (s : List Char) : Except Fault α :=
  if Text.byteLength s < 4 then stop .endInString [] 0 else stop .invalidEscape s 4

/-- A character before what the rest of the string yields. -/
def consTo (c : Char) : Except Fault (List Char × List Char) → Except Fault (List Char × List Char)
  | .ok (cs, rest) => .ok (c :: cs, rest)
  | .error f => .error f

/-- Reads a string whose opening quote has been consumed. -/
def stringBody : Reader (List Char)
  | [] => stop .endInString [] 0
  | c :: rest =>
    if c = '"' then .ok ([], rest)
    else if c = '\\' then
      match rest with
      | [] => stop .endInString [] 0
      | 'u' :: digits =>
        match digits with
        | a₁ :: b₁ :: c₁ :: d₁ :: rest₁ =>
          match codeUnit? a₁ b₁ c₁ d₁ with
          | none => badUnit (a₁ :: b₁ :: c₁ :: d₁ :: rest₁)
          | some n =>
            if isTrailing n then stop .loneSurrogate rest₁ 0
            else if isLeading n then
              match rest₁ with
              | [] => stop .endInString [] 0
              | '\\' :: next =>
                match next with
                | [] => stop .endInString [] 0
                | 'u' :: digits₂ =>
                  match digits₂ with
                  | a₂ :: b₂ :: c₂ :: d₂ :: rest₂ =>
                    match codeUnit? a₂ b₂ c₂ d₂ with
                    | none => badUnit (a₂ :: b₂ :: c₂ :: d₂ :: rest₂)
                    | some m =>
                      if isTrailing m then consTo (paired n m) (stringBody rest₂)
                      else stop .loneSurrogate rest₂ 0
                  | short => badUnit short
                | other => stop .endOfHexEscape other 1
              | other => stop .endOfHexEscape other 1
            else consTo (Char.ofNat n) (stringBody rest₁)
        | short => badUnit short
      | e :: rest₁ =>
        match shortEscape? e with
        | some x => consTo x (stringBody rest₁)
        | none => stop .invalidEscape (e :: rest₁) 1
    else if c < ' ' then stop .controlCharacter (c :: rest) 1
    else consTo c (stringBody rest)

/-! ## Numbers -/

/-- The value of a digit. -/
def digitValue (c : Char) : Nat := c.toNat - '0'.toNat

/-- Reads digits into `value` while it stays within `limit`: the value, the number of digits, and the rest,
which begins with a digit only if that would exceed the limit. -/
def digitsWithin (limit value count : Nat) : List Char → Nat × Nat × List Char
  | [] => (value, count, [])
  | c :: rest =>
    if Text.isDigit c && value * 10 + digitValue c ≤ limit then
      digitsWithin limit (value * 10 + digitValue c) (count + 1) rest
    else (value, count, c :: rest)

/-- The text without the digits at its front. -/
def dropDigits (s : List Char) : List Char := s.dropWhile Text.isDigit

/-- Whether the text goes on with a digit. -/
def digitNext : List Char → Bool
  | [] => false
  | c :: _ => Text.isDigit c

/-- The largest significand that is kept exactly. -/
def wordLimit : Nat := 0xFFFFFFFFFFFFFFFF

/-- The decimal of a sign, a significand and a power of ten, once its last character has been read. -/
def decimal (isNegative : Bool) (significand : Nat) (exponent : Int) (rest : List Char) :
    Except Fault (Number × List Char) :=
  match Number.toFloat? isNegative significand.toUInt64 exponent with
  | some _ => .ok (.decimal isNegative significand.toUInt64 exponent, rest)
  | none => stop .numberOutOfRange rest 0

/-- The largest exponent that is read to its end. -/
def exponentLimit : Nat := 0x7FFFFFFF

/-- Reads an exponent after its `e`, for a significand with `before` powers of ten. -/
def exponentPart (isNegative : Bool) (significand : Nat) (before : Int) (s : List Char) :
    Except Fault (Number × List Char) :=
  let (down, s) := match s with
    | '+' :: rest => (false, rest)
    | '-' :: rest => (true, rest)
    | other => (false, other)
  match s with
  | [] => stop .endInValue [] 0
  | c :: rest =>
    if Text.isDigit c then
      let (e, _, rest) := digitsWithin exponentLimit (digitValue c) 0 rest
      if digitNext rest then
        if significand ≠ 0 && !down then stop .numberOutOfRange (rest.drop 1) 0
        else .ok (.decimal isNegative 0 0, dropDigits rest)
      else decimal isNegative significand (if down then before - e else before + e) rest
    else stop .invalidNumber (c :: rest) 1

/-- Reads an exponent if there is one. -/
def exponentOr (isNegative : Bool) (significand : Nat) (before : Int) (s : List Char) :
    Except Fault (Number × List Char) :=
  match s with
  | 'e' :: rest => exponentPart isNegative significand before rest
  | 'E' :: rest => exponentPart isNegative significand before rest
  | other => decimal isNegative significand before other

/-- Reads the digits after a point, for a significand with `before` powers of ten. -/
def fractionPart (isNegative : Bool) (significand : Nat) (before : Int) (s : List Char) :
    Except Fault (Number × List Char) :=
  let (value, count, rest) := digitsWithin wordLimit significand 0 s
  if digitNext rest then exponentOr isNegative value (before - count) (dropDigits rest)
  else if count = 0 then
    match rest with
    | [] => stop .endInValue [] 0
    | _ => stopAt .invalidNumber rest
  else exponentOr isNegative value (before - count) rest

/-- The number after a whole part that is kept exactly. -/
def afterWhole (isNegative : Bool) (value : Nat) (s : List Char) : Except Fault (Number × List Char) :=
  match s with
  | '.' :: rest => fractionPart isNegative value 0 rest
  | 'e' :: rest => exponentPart isNegative value 0 rest
  | 'E' :: rest => exponentPart isNegative value 0 rest
  | other =>
    if !isNegative then .ok (.whole value.toUInt64, other)
    else if value = 0 || 0x8000000000000000 < value then .ok (.decimal true value.toUInt64 0, other)
    else .ok (.negative value.toUInt64, other)

/-- Reads a number whose sign has been consumed. -/
def numberBody (isNegative : Bool) : Reader Number
  | [] => stop .endInValue [] 0
  | c :: rest =>
    if c = '0' then
      if digitNext rest then stopAt .invalidNumber rest else afterWhole isNegative 0 rest
    else if Text.isDigit c then
      let (value, _, rest) := digitsWithin wordLimit (digitValue c) 0 rest
      if digitNext rest then
        let further : Int := (rest.takeWhile Text.isDigit).length
        match dropDigits rest with
        | '.' :: rest => fractionPart isNegative value further rest
        | other => exponentOr isNegative value further other
      else afterWhole isNegative value rest
    else stop .invalidNumber (c :: rest) 1

end ModuleScaffold.Json
