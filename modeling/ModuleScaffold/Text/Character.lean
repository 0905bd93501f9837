import ModuleScaffold.Text.WordTable
import ModuleScaffold.Text.IdentifierTable
import ModuleScaffold.Text.HiddenTable

/-! # Classes of characters

Each class is decided directly for ASCII and by a table of ranges beyond it. -/

namespace ModuleScaffold.Text

/-- Whether a code point lies in one of the ranges, which are in increasing order. -/
def inRanges (n : Nat) : List (Nat × Nat) → Bool
  | [] => false
  | (low, high) :: rest => if n < low then false else n ≤ high || inRanges n rest

/-- Whether a character is an ASCII letter. -/
def isLetter (c : Char) : Bool := ('a' ≤ c && c ≤ 'z') || ('A' ≤ c && c ≤ 'Z')

/-- Whether a character is an ASCII digit. -/
def isDigit (c : Char) : Bool := '0' ≤ c && c ≤ '9'

/-- The value of a hexadecimal digit. -/
def hexValue? (c : Char) : Option Nat :=
  if isDigit c then some (c.toNat - '0'.toNat)
  else if 'a' ≤ c && c ≤ 'f' then some (c.toNat - 'a'.toNat + 10)
  else if 'A' ≤ c && c ≤ 'F' then some (c.toNat - 'A'.toNat + 10)
  else none

/-- Whether a character may stand in a word: a letter, mark, digit, connector or join control of any script. -/
def isWord (c : Char) : Bool :=
  if c.toNat < 0x80 then isLetter c || isDigit c || c == '_' else inRanges c.toNat wordRanges

/-- Whether a character may begin an identifier: a letter of any script or an underscore. -/
def isIdentifierStart (c : Char) : Bool :=
  if c.toNat < 0x80 then isLetter c || c == '_' else inRanges c.toNat identifierStartRanges

/-- Whether a character may stand inside an identifier, where a dash is allowed too. -/
def isIdentifierPart (c : Char) : Bool :=
  if c.toNat < 0x80 then isLetter c || isDigit c || c == '_' || c == '-'
  else inRanges c.toNat identifierRanges

/-- Whether a text is an identifier. -/
def isIdentifier : List Char → Bool
  | [] => false
  | c :: rest => isIdentifierStart c && rest.all isIdentifierPart

/-- The character with its ASCII letter, if it is one, in lower case. -/
def lowerChar (c : Char) : Char := if 'A' ≤ c && c ≤ 'Z' then Char.ofNat (c.toNat + 32) else c

/-- A text with its ASCII letters in lower case. -/
def lower (s : String) : String := String.ofList (s.toList.map lowerChar)

/-- The number of bytes of a character in UTF-8. -/
def width (c : Char) : Nat := c.utf8Size

/-- The number of bytes of a text in UTF-8. -/
def byteLength : List Char → Nat
  | [] => 0
  | c :: rest => width c + byteLength rest

end ModuleScaffold.Text
