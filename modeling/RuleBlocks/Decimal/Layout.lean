import RuleBlocks.Decimal.Shortest

/-!
# Decimals in text

How the shortest decimal of a floating-point number is laid out. A number of moderate size is
written with a point and at least one digit on each side of it; any other in scientific notation
with one digit before the point, the sign of the exponent always written, and no padding.

Main definitions:

* `Layout`, `Layout.numbers` — the choices of a notation, and those that this library makes;
* `Layout.write` — the text of a floating-point number.
-/

namespace RuleBlocks

/-- The choices that fix how a decimal is written. -/
structure Layout where
  /-- Positional notation is used if the position of the point is at least this … -/
  leastPoint : Int
  /-- … and at most this. -/
  greatestPoint : Int
  /-- What is written for zero. -/
  zero : String
deriving Repr

/-- Positional notation covers `1e-5 ≤ |x| < 1e16`. -/
def Layout.numbers : Layout :=
  { leastPoint := -4, greatestPoint := 16, zero := "0.0" }

namespace Layout

/-- The digits with a point, and with zeros where there are no digits. -/
def positional (d : Decimal) : List Char :=
  let zeros (n : Int) := List.replicate n.toNat '0'
  if d.point ≤ 0 then '0' :: '.' :: (zeros (-d.point) ++ d.digits)
  else
    let whole := d.digits.take d.point.toNat ++ zeros (d.point - d.digits.length)
    let fraction := d.digits.drop d.point.toNat
    whole ++ '.' :: (if fraction.isEmpty then ['0'] else fraction)

def scientific (d : Decimal) : List Char :=
  let exponent := d.point - 1
  let tail := d.digits.drop 1
  d.digits.take 1 ++ (if tail.isEmpty then [] else '.' :: tail)
    ++ 'e' :: (if exponent < 0 then '-' else '+') :: Nat.toDigits 10 exponent.natAbs

def writeDecimal (layout : Layout) (d : Decimal) : List Char :=
  if layout.leastPoint ≤ d.point ∧ d.point ≤ layout.greatestPoint then positional d
  else scientific d

/-- The text of a finite number. The sign of zero is written. -/
def write (layout : Layout) (x : Float) : String :=
  let bits := x.toBits
  let sign := if bits >>> 63 == 1 then "-" else ""
  if bits <<< 1 == 0 then sign ++ layout.zero
  else sign ++ String.ofList (layout.writeDecimal (shortest (.ofBits bits)))

example : Layout.numbers.writeDecimal ⟨['1'], 17⟩ = "1e+16".toList := by decide
example : Layout.numbers.writeDecimal ⟨['1', '5'], -6⟩ = "1.5e-7".toList := by decide
example : Layout.numbers.writeDecimal ⟨['1'], -4⟩ = "0.00001".toList := by decide
example : Layout.numbers.writeDecimal ⟨['1'], 16⟩ = "1000000000000000.0".toList := by decide

end Layout

end RuleBlocks
