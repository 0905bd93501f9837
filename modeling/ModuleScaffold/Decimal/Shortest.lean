/-! # The shortest decimal that reads back

A binary fraction stands for all reals that round to it. Of the decimals in that interval the one with the
fewest digits is taken, and of two with equally few the nearer. -/

namespace ModuleScaffold.Decimal

/-- A positive binary fraction `significand * 2 ^ exponent`. -/
structure Binary where
  significand : Nat
  exponent : Int
  /-- Whether the next smaller fraction lies only half a step away. -/
  narrowBelow : Bool

namespace Binary

/-- The first number that the fraction field of a machine number cannot hold. -/
def fractionEnd : Nat := 0x10000000000000

/-- The fraction that a positive finite machine number stands for. -/
def ofFloat (x : Float) : Binary :=
  let bits : Nat := x.toBits.toNat
  let field : Nat := bits / fractionEnd % 0x800
  let fraction : Nat := bits % fractionEnd
  if field = 0 then ⟨fraction, -1074, false⟩
  else ⟨fraction + fractionEnd, (field : Int) - 1075, fraction == 0 && 1 < field⟩

/-- `base` to the power of `e`, or one when `e` is negative. -/
def power (base : Nat) (e : Int) : Nat := Nat.pow base e.toNat

/-- Whether `n * 10 ^ i` rounds to the fraction; the ends of the interval count when the significand is
even. -/
def holds (b : Binary) (i : Int) (n : Nat) : Bool :=
  let scale := power 2 b.exponent * power 10 (-i)
  let value := n * 4 * (power 2 (-b.exponent) * power 10 i)
  let low := (4 * b.significand - (if b.narrowBelow then 1 else 2)) * scale
  let high := (4 * b.significand + 2) * scale
  if b.significand % 2 = 0 then low ≤ value && value ≤ high else low < value && value < high

/-- The decimal of the grid `10 ^ i` that rounds to the fraction: one of its two neighbours there, the nearer
one when both do. -/
def onGrid? (b : Binary) (i : Int) : Option Nat :=
  let numerator := b.significand * (power 2 b.exponent * power 10 (-i))
  let denominator := power 2 (-b.exponent) * power 10 i
  let below := numerator / denominator
  match b.holds i below, b.holds i (below + 1) with
  | true, true => some (if 2 * (numerator % denominator) ≤ denominator then below else below + 1)
  | true, false => some below
  | false, true => some (below + 1)
  | false, false => none

/-- The first hit on the grids from `10 ^ i` downwards. -/
def scan (b : Binary) (i : Int) : Nat → Nat × Int
  | 0 => (0, i)
  | steps + 1 =>
    match b.onGrid? i with
    | some n => (n, i)
    | none => b.scan (i - 1) steps

/-- The digits and the power of ten of the shortest decimal; no machine number needs a coarser grid than
`10 ^ 309` or a finer one than `10 ^ (-324)`. -/
def shortest (b : Binary) : Nat × Int := b.scan 309 640

end Binary

/-- How machine numbers are written in messages. -/
structure Style where
  /-- Powers of ten of the leading digit from here on are written without an exponent, … -/
  positionalFrom : Int
  /-- … up to this one. -/
  positionalTo : Int
  /-- The least number of digits of an exponent. -/
  exponentDigits : Nat

/-- The digits after the point are one zero when there are none; an exponent shows its sign. -/
def Style.write (style : Style) (digits : List Char) (exponent : Int) : List Char :=
  let count : Int := digits.length
  let leading := exponent + count - 1
  if style.positionalFrom ≤ leading ∧ leading ≤ style.positionalTo then
    if 0 ≤ exponent then digits ++ List.replicate exponent.toNat '0' ++ ['.', '0']
    else if 0 ≤ leading then
      digits.take (leading + 1).toNat ++ '.' :: digits.drop (leading + 1).toNat
    else '0' :: '.' :: List.replicate (-leading - 1).toNat '0' ++ digits
  else
    let rest := digits.drop 1
    let size := Nat.toDigits 10 leading.natAbs
    digits.take 1 ++ (if rest.isEmpty then [] else '.' :: rest)
      ++ ['e', if leading < 0 then '-' else '+']
      ++ List.replicate (style.exponentDigits - size.length) '0' ++ size

/-- A finite machine number as text. -/
def Style.text (style : Style) (x : Float) : String :=
  let sign := if 0x8000000000000000 ≤ x.toBits.toNat then ['-'] else []
  if x == 0 then String.ofList (sign ++ ['0', '.', '0'])
  else
    let (n, i) := (Binary.ofFloat x.abs).shortest
    String.ofList (sign ++ style.write (Nat.toDigits 10 n) i)

end ModuleScaffold.Decimal
