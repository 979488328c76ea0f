/-!
# Shortest decimals

The decimal that stands for a binary floating-point number is the shortest one that reads back as
that number, and of those the nearest. All comparisons are made in exact integer arithmetic on the
interval of reals that round to the number.

Main definitions:

* `Binary64` — a positive finite number as `mantissa · 2 ^ exponent`;
* `Binary64.interval` — the reals that round to it;
* `Decimal`, `shortest` — the digits that stand for it.
-/

namespace RuleBlocks

/-- A positive finite double-precision number, `mantissa · 2 ^ exponent`. -/
structure Binary64 where
  mantissa : Nat
  exponent : Int
  /-- Below a power of two the neighbours stand half as far apart. -/
  isLowestOfBinade : Bool
deriving DecidableEq, Repr

/-- Digits `d₁ d₂ … dₙ`, the first and last not zero, and the position of the point: the value is
`0.d₁d₂…dₙ · 10 ^ point`. -/
structure Decimal where
  digits : List Char
  point : Int
deriving DecidableEq, Repr

namespace Binary64

/-- The magnitude of the number with the given bits, which are those of a finite number other than
zero. -/
def ofBits (bits : UInt64) : Binary64 :=
  let fraction := (bits &&& 0xFFFFFFFFFFFFF).toNat
  let biased := (bits >>> 52 &&& 0x7FF).toNat
  if biased = 0 then { mantissa := fraction, exponent := -1074, isLowestOfBinade := false }
  else
    { mantissa := fraction + 0x10000000000000
      exponent := (biased : Int) - 1075
      isLowestOfBinade := fraction == 0 && biased != 1 }

/-- The ends of the interval of reals that round to the number, and the number itself, as multiples
of `2 ^ (exponent - 2)`. -/
def interval (x : Binary64) : Nat × Nat × Nat :=
  (4 * x.mantissa - (if x.isLowestOfBinade then 1 else 2), 4 * x.mantissa, 4 * x.mantissa + 2)

/-- A tie between two neighbours goes to the even one, so an even mantissa keeps its ends. -/
def keepsEnds (x : Binary64) : Bool :=
  x.mantissa % 2 == 0

/-- The least `p` for which the number is below `10 ^ p`. No positive number is below `10 ^ -330`,
so its multiple by `10 ^ 330` has an integer part whose digits can be counted. -/
def magnitude (x : Binary64) : Int :=
  let scaled := (x.mantissa * Nat.pow 10 330) <<< x.exponent.toNat >>> (-x.exponent).toNat
  ((Nat.toDigits 10 scaled).length : Int) - 330

end Binary64

/-- The multiple of `10 ^ k` that stands for the number, if one of its two neighbours on that grid
rounds to it. Of two that do the nearer is taken, and the even one if they are equally near. -/
def gridPoint? (x : Binary64) (k : Int) : Option Nat :=
  let (low, mid, high) := x.interval
  let q := x.exponent - 2
  -- a multiple `d` of the grid and a multiple `y` of `2 ^ q` compare as `d * step` and `y * unit`
  let step := Nat.pow 10 k.toNat <<< (-q).toNat
  let unit := Nat.pow 10 (-k).toNat <<< q.toNat
  let below := mid * unit / step
  let above := below + 1
  let rounds (d : Nat) : Bool :=
    if x.keepsEnds then low * unit ≤ d * step && d * step ≤ high * unit
    else low * unit < d * step && d * step < high * unit
  let distBelow := mid * unit - below * step
  let distAbove := above * step - mid * unit
  match rounds below, rounds above with
  | true, true =>
    if distBelow < distAbove || (distBelow == distAbove && below % 2 == 0) then some below
    else some above
  | true, false => some below
  | false, true => some above
  | false, false => none

/-- The digits of a multiple of `10 ^ k`, without the zeros at the end. -/
def Decimal.ofMultiple (d : Nat) (k : Int) : Decimal :=
  let digits := Nat.toDigits 10 d
  { digits := (digits.reverse.dropWhile (· == '0')).reverse
    point := (digits.length : Int) + k }

/-- The decimal that equals the number. -/
def Decimal.exact (x : Binary64) : Decimal :=
  .ofMultiple ((x.mantissa * Nat.pow 5 (-x.exponent).toNat) <<< x.exponent.toNat) (min x.exponent 0)

/-- The shortest decimal that rounds to the number. Seventeen digits always suffice, so the exact
decimal is never needed. -/
def shortest (x : Binary64) : Decimal :=
  let grids : List Int := (List.range 17).map fun (n : Nat) => x.magnitude - ((n : Int) + 1)
  let hit := grids.findSome? fun k => (gridPoint? x k).map fun d => Decimal.ofMultiple d k
  hit.getD (.exact x)

end RuleBlocks
