import ModuleScaffold.Text.Split
import ModuleScaffold.Text.Character

/-! # Quoted text of a configuration

A text between double quotes stands for itself: controls, quotes and backslashes are escaped, and so are the
markers that would begin a template. -/

namespace ModuleScaffold.Hcl.Quoted

/-- Whether a template begins here. -/
def templateAt : List Char → Bool
  | '$' :: '\x7b' :: _ => true
  | '%' :: '\x7b' :: _ => true
  | _ => false

/-- Doubles the first character of every template marker. A dollar or percent sign is read together with the
character behind it. -/
def doubleMarkers : List Char → List Char
  | [] => []
  | [c] => [c]
  | c :: d :: rest =>
    if c = '$' || c = '%' then
      if d = '\x7b' then c :: c :: d :: doubleMarkers rest else c :: d :: doubleMarkers rest
    else c :: doubleMarkers (d :: rest)

/-- Escapes the template markers of a text; what stands before the first one is left as it is. -/
def escapeTemplates : List Char → List Char
  | [] => []
  | c :: rest => if templateAt (c :: rest) then doubleMarkers (c :: rest) else c :: escapeTemplates rest

/-- The hexadecimal digit of a number below sixteen. -/
def hexDigit (n : Nat) : Char :=
  if n < 10 then Char.ofNat ('0'.toNat + n) else Char.ofNat ('a'.toNat + (n - 10))

/-- A character as it stands between the quotes. -/
def escapeChar (c : Char) : List Char :=
  if c = '"' then ['\\', '"']
  else if c = '\\' then ['\\', '\\']
  else if c = '\x08' then ['\\', 'b']
  else if c = '\t' then ['\\', 't']
  else if c = '\n' then ['\\', 'n']
  else if c = '\x0c' then ['\\', 'f']
  else if c = '\r' then ['\\', 'r']
  else if c < ' ' then ['\\', 'u', '0', '0', hexDigit (c.toNat / 16), hexDigit (c.toNat % 16)]
  else [c]

/-- A text between its quotes. -/
def encode (s : List Char) : List Char :=
  '"' :: (escapeTemplates s).flatMap escapeChar ++ ['"']

end ModuleScaffold.Hcl.Quoted
