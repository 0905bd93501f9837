import ModuleScaffold.Decimal.Shortest

/-! # JSON values

Numbers keep what their text says: whole numbers that fit a machine word, and a decimal for everything else. -/

namespace ModuleScaffold

/-- A number of a document. -/
inductive Json.Number where
  | whole (n : UInt64)
  /-- The integer `-n`, for `1 ≤ n ≤ 2 ^ 63`. -/
  | negative (n : UInt64)
  /-- The number `significand * 10 ^ exponent`, with its sign. -/
  | decimal (isNegative : Bool) (significand : UInt64) (exponent : Int)
  deriving DecidableEq, Repr

/-- A JSON value; the members of an object are in the order of the document. -/
inductive Json where
  | null
  | bool (b : Bool)
  | number (n : Json.Number)
  | string (s : String)
  | array (elements : List Json)
  | object (members : List (String × Json))
  deriving Inhabited

namespace Json

/-- The power of ten as a machine number. -/
def Number.tenTo (e : Nat) : Float := Float.ofScientific 1 false e

/-- A significand divided by `10 ^ e`, in steps that machine numbers can hold. -/
def Number.scaleDown (x : Float) : Nat → Nat → Float
  | _, 0 => 0
  | e, steps + 1 => if e ≤ 308 then x / tenTo e else scaleDown (x / tenTo 308) (e - 308) steps

/-- The machine number nearest to a decimal in one multiplication or division; none when it is too large. -/
def Number.toFloat? (isNegative : Bool) (significand : UInt64) (exponent : Int) : Option Float :=
  let sign (x : Float) := if isNegative then -x else x
  let x := significand.toFloat
  if significand = 0 then some (sign 0)
  else if 0 ≤ exponent then
    if exponent ≤ 308 then
      let y := x * tenTo exponent.toNat
      if y.isInf then none else some (sign y)
    else none
  else some (sign (scaleDown x exponent.natAbs 4))

/-- Machine numbers in messages: positional from 0.00001 up to sixteen digits before the point. -/
def Number.style : Decimal.Style := ⟨-5, 15, 2⟩

end Json
end ModuleScaffold
