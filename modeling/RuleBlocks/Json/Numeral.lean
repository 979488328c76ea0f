import RuleBlocks.Json.Basic

/-!
# Numerals

What number a JSON numeral stands for. An integer that fits into 64 bits is kept exactly. For any
other numeral the leading digits that fit into 64 bits are converted to a floating-point number,
which is then multiplied or divided by one power of ten; this costs two roundings, so the result
need not be the nearest number to the numeral. A magnitude beyond the floating-point range is
refused, one below it is zero.

Main definitions:

* `Numeral` — a numeral by its parts;
* `Numeral.absorb` — collect digits as long as they fit;
* `scale?` — multiply by a power of ten;
* `Numeral.value?` — the number.
-/

namespace RuleBlocks

/-- The parts of a numeral. The digits before the point are never empty, and neither are the
digits of an exponent. -/
structure Numeral where
  negative : Bool
  whole : List Char
  /-- The digits after the point; empty if there is no point. -/
  fraction : List Char
  /-- Whether the exponent is negative, and its digits. -/
  exponent : Option (Bool × List Char)
deriving DecidableEq, Repr

/-- The value of a decimal digit. -/
def digitValue (c : Char) : Nat :=
  c.toNat - '0'.toNat

def digitsValue (digits : List Char) : Nat :=
  digits.foldl (fun n c => 10 * n + digitValue c) 0

/-- Append digits to a number as long as it fits into 64 bits. The first digit that does not fit and
all after it are left over, and so are counted. -/
def Numeral.absorb (n : Nat) : List Char → Nat × Nat
  | [] => (n, 0)
  | c :: r =>
    if 10 * n + digitValue c < UInt64.size then absorb (10 * n + digitValue c) r
    else (n, (c :: r).length)

/-- The greatest exponent of ten that has a floating-point number. -/
def greatestTen : Nat := 308

def powerOfTen (n : Nat) : Float :=
  Float.ofScientific 1 false n

/-- Divide by a power of ten, in steps where the power itself is out of range. -/
def scaleDown (x : Float) (n : Nat) : Float :=
  if n ≤ greatestTen then x / powerOfTen n
  else if x == 0.0 then x
  else scaleDown (x / powerOfTen greatestTen) (n - greatestTen)
termination_by n
decreasing_by have : greatestTen = 308 := rfl; omega

/-- The number `n · 10 ^ e`, unless it is out of range. -/
def scale? (n : Nat) (e : Int) : Option Float :=
  let x := Float.ofNat n
  if e < 0 then some (scaleDown x e.natAbs)
  else if e.natAbs ≤ greatestTen then
    let y := x * powerOfTen e.natAbs
    if y.isInf then none else some y
  else if x == 0.0 then some x
  else none

/-- The greatest exponent that is read digit by digit. -/
def greatestExponent : Nat := 2147483647

namespace Numeral

/-- The floating-point number of a numeral without its sign. -/
def magnitude? (n : Numeral) : Option Float :=
  let (head, dropped) := absorb 0 n.whole
  let (significand, unread) := absorb head n.fraction
  let shift : Int := (dropped : Int) - (n.fraction.length - unread : Nat)
  match n.exponent with
  | none => scale? significand shift
  | some (isNegative, digits) =>
    let e := digitsValue digits
    if greatestExponent < e then
      if significand != 0 && !isNegative then none else some 0.0
    else scale? significand (if isNegative then shift - e else shift + e)

/-- The number that a numeral stands for; `none` if it is out of range. A zero with a minus sign is
the floating-point negative zero. -/
def value? (n : Numeral) : Option Number :=
  let (integer, dropped) := absorb 0 n.whole
  if n.fraction.isEmpty && n.exponent.isNone && dropped == 0 then
    if !n.negative then some (.integer integer)
    else if 0 < integer ∧ Int64.minValue.toInt ≤ -(integer : Int) then
      some (.integer (-(integer : Int)))
    else some (.float (-(Float.ofNat integer)))
  else
    n.magnitude?.map fun x => .float (if n.negative then -x else x)

end Numeral

end RuleBlocks
