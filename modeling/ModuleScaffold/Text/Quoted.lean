import ModuleScaffold.Text.Character

/-! # Quoted text in messages

How a message shows a text it was given: in double quotes, with everything that cannot be seen spelled out. -/

namespace ModuleScaffold.Text.Quoted

/-- The digits of a code point in lower-case hexadecimal, without leading zeros. -/
def hexadecimal (n : Nat) : List Char := Nat.toDigits 16 n

/-- A character as it stands inside the quotes. -/
def encodeChar (c : Char) : List Char :=
  if c = '"' then ['\\', '"']
  else if c = '\\' then ['\\', '\\']
  else if c = '\n' then ['\\', 'n']
  else if c = '\r' then ['\\', 'r']
  else if c = '\t' then ['\\', 't']
  else if c = '\x00' then ['\\', '0']
  else if (c.toNat < 0x80 && (c.toNat < 0x20 || c.toNat = 0x7F))
      || (0x80 ≤ c.toNat && inRanges c.toNat hiddenRanges) then
    '\\' :: 'u' :: '\x7b' :: hexadecimal c.toNat ++ ['\x7d']
  else [c]

/-- A text between its quotes. -/
def encode (s : String) : String :=
  String.ofList ('"' :: s.toList.flatMap encodeChar ++ ['"'])

end ModuleScaffold.Text.Quoted
