import ModuleScaffold.Json.Lexeme

/-! # Values that are passed over

A member that nobody asked for is checked against the grammar only: its numbers have no range, its escapes
need only hexadecimal digits, and it may be nested to any depth. -/

namespace ModuleScaffold.Json

/-- Passes over a string whose opening quote has been consumed. -/
def skipString : List Char → Except Fault (List Char)
  | [] => stop .endInString [] 0
  | c :: rest =>
    if c = '"' then .ok rest
    else if c = '\\' then
      match rest with
      | [] => stop .endInString [] 0
      | 'u' :: digits =>
        match digits with
        | a₁ :: b₁ :: c₁ :: d₁ :: rest₁ =>
          match codeUnit? a₁ b₁ c₁ d₁ with
          | none => badUnit (a₁ :: b₁ :: c₁ :: d₁ :: rest₁)
          | some _ => skipString rest₁
        | short => badUnit short
      | e :: rest₁ =>
        match shortEscape? e with
        | some _ => skipString rest₁
        | none => stop .invalidEscape (e :: rest₁) 1
    else if c < ' ' then stop .controlCharacter (c :: rest) 0
    else skipString rest

/-- Passes over an exponent after its `e`. -/
def skipExponent (s : List Char) : Except Fault (List Char) :=
  let s := match s with
    | '+' :: rest => rest
    | '-' :: rest => rest
    | other => other
  match s with
  | [] => stop .invalidNumber [] 0
  | c :: rest => if Text.isDigit c then .ok (dropDigits rest) else stop .invalidNumber (c :: rest) 1

/-- Passes over what may follow the whole part of a number. -/
def skipAfterWhole (s : List Char) : Except Fault (List Char) :=
  match s with
  | '.' :: rest =>
    if digitNext rest then
      match dropDigits rest with
      | 'e' :: rest => skipExponent rest
      | 'E' :: rest => skipExponent rest
      | other => .ok other
    else stopAt .invalidNumber rest
  | 'e' :: rest => skipExponent rest
  | 'E' :: rest => skipExponent rest
  | other => .ok other

/-- Passes over a number whose sign has been consumed. -/
def skipNumber : List Char → Except Fault (List Char)
  | [] => stop .invalidNumber [] 0
  | c :: rest =>
    if c = '0' then if digitNext rest then stopAt .invalidNumber rest else skipAfterWhole rest
    else if Text.isDigit c then skipAfterWhole (dropDigits rest)
    else stop .invalidNumber (c :: rest) 1

/-- What the value that is being passed over stands in. -/
inductive Frame where
  | list | object
  deriving DecidableEq, Repr

/-- The fault of a text that ends within a frame. -/
def Frame.unfinished : Frame → Reason
  | list => .endInList
  | object => .endInObject

/-- The fault of a value that nothing fitting follows. -/
def Frame.unseparated : Frame → Reason
  | list => .expectedCommaOrBracket
  | object => .expectedCommaOrBrace

/-- The bracket that ends a frame. -/
def Frame.close : Frame → Char
  | list => ']'
  | object => '\x7d'

/-- Passes over the key of a member and its colon. -/
def skipKey (s : List Char) : Except Fault (List Char) :=
  match skipSpaces s with
  | [] => stopAt .endInObject []
  | c :: rest =>
    if c = '"' then
      match skipString rest with
      | .error f => .error f
      | .ok rest =>
        match skipSpaces rest with
        | [] => stopAt .endInObject []
        | ':' :: rest => .ok rest
        | other => stopAt .expectedColon other
    else stopAt .keyNotString (c :: rest)

/-- Passes over one number, string, or word; brackets are left where they are. -/
def skipScalar (c : Char) (rest : List Char) : Except Fault (List Char) :=
  if c = 'n' then expectWord ['u', 'l', 'l'] rest
  else if c = 't' then expectWord ['r', 'u', 'e'] rest
  else if c = 'f' then expectWord ['a', 'l', 's', 'e'] rest
  else if c = '-' then skipNumber rest
  else if Text.isDigit c then skipNumber (c :: rest)
  else if c = '"' then skipString rest
  else stopAt .expectedValue (c :: rest)

mutual

/-- Passes over a value and then over what is left of the frames around it, innermost first. -/
def skipFrom (frames : List Frame) (s : List Char) : Nat → Except Fault (List Char)
  | 0 => stop .endInValue s 0
  | steps + 1 =>
    match skipSpaces s with
    | [] => stopAt .endInValue []
    | c :: rest =>
      if c = '[' then skipOpened .list frames rest steps
      else if c = '\x7b' then skipOpened .object frames rest steps
      else
        match skipScalar c rest with
        | .error f => .error f
        | .ok rest => skipAfter frames rest steps

/-- Goes on behind the opening bracket of a frame. -/
def skipOpened (frame : Frame) (frames : List Frame) (s : List Char) : Nat → Except Fault (List Char)
  | 0 => stop .endInValue s 0
  | steps + 1 =>
    match skipSpaces s with
    | [] => stopAt frame.unfinished []
    | c :: rest =>
      if c = frame.close then skipAfter frames rest steps
      else skipElement frame frames (c :: rest) steps

/-- Goes on at an element of a list or a member of an object. -/
def skipElement (frame : Frame) (frames : List Frame) (s : List Char) : Nat → Except Fault (List Char)
  | 0 => stop .endInValue s 0
  | steps + 1 =>
    match frame with
    | .list => skipFrom (.list :: frames) s steps
    | .object =>
      match skipKey s with
      | .error f => .error f
      | .ok rest => skipFrom (.object :: frames) rest steps

/-- Goes on behind a value. -/
def skipAfter (frames : List Frame) (s : List Char) : Nat → Except Fault (List Char)
  | 0 => stop .endInValue s 0
  | steps + 1 =>
    match frames with
    | [] => .ok s
    | frame :: outer =>
      match skipSpaces s with
      | [] => stopAt frame.unfinished []
      | c :: rest =>
        if c = ',' then skipElement frame outer rest steps
        else if c = frame.close then skipAfter outer rest steps
        else stopAt frame.unseparated (c :: rest)

end

/-- Passes over a value; every character takes three steps at most. -/
def skipValue (s : List Char) : Except Fault (List Char) := skipFrom [] s (3 * s.length + 3)

end ModuleScaffold.Json
