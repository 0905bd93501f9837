/-! # Bytes as text

UTF-8 is read from the left: every place yields a character or the longest start of one that the bytes do
not complete. -/

namespace ModuleScaffold.Text.Utf8

/-- Whether a byte continues a character. -/
def continues (b : UInt8) : Bool := 0x80 ≤ b && b ≤ 0xBF

/-- Whether `b` may follow the first byte `a` of a character of three or four bytes: overlong forms,
surrogates and what lies beyond the last code point are excluded here. -/
def mayFollow (a b : UInt8) : Bool :=
  if a = 0xE0 then 0xA0 ≤ b && b ≤ 0xBF
  else if a = 0xED then 0x80 ≤ b && b ≤ 0x9F
  else if a = 0xF0 then 0x90 ≤ b && b ≤ 0xBF
  else if a = 0xF4 then 0x80 ≤ b && b ≤ 0x8F
  else continues b

/-- The low six bits of a continuing byte. -/
def payload (b : UInt8) : Nat := b.toNat % 0x40

/-- The characters of a byte sequence, with `none` for every part that is no character. -/
def decode : List UInt8 → List (Option Char)
  | [] => []
  | a :: rest =>
    if a < 0x80 then some (Char.ofNat a.toNat) :: decode rest
    else if a < 0xC2 || 0xF4 < a then none :: decode rest
    else
      match rest with
      | [] => [none]
      | b :: rest₁ =>
        if a < 0xE0 then
          if continues b then
            some (Char.ofNat (a.toNat % 0x20 * 0x40 + payload b)) :: decode rest₁
          else none :: decode (b :: rest₁)
        else if mayFollow a b then
          match rest₁ with
          | [] => [none]
          | c :: rest₂ =>
            if continues c then
              if a < 0xF0 then
                some (Char.ofNat ((a.toNat % 0x10 * 0x40 + payload b) * 0x40 + payload c)) :: decode rest₂
              else
                match rest₂ with
                | [] => [none]
                | d :: rest₃ =>
                  if continues d then
                    some (Char.ofNat
                      (((a.toNat % 0x08 * 0x40 + payload b) * 0x40 + payload c) * 0x40 + payload d))
                      :: decode rest₃
                  else none :: decode (d :: rest₃)
            else none :: decode (c :: rest₂)
        else none :: decode (b :: rest₁)

/-- The text of a byte sequence that is valid throughout. -/
def text? (bytes : List UInt8) : Option String :=
  ((decode bytes).mapM id).map String.ofList

/-- The text of any byte sequence, with a replacement character for every part that is no character. -/
def lossy (bytes : List UInt8) : String :=
  String.ofList ((decode bytes).map fun c => c.getD '\uFFFD')

/-- The bytes of a text. -/
def encode (s : String) : List UInt8 := s.toUTF8.toList

end ModuleScaffold.Text.Utf8
