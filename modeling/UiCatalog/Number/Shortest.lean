import UiCatalog.Number.Binary64

/-!
# The fewest digits that read back

A floating-point number is written with the fewest digits that only it is nearest to, and of several such
decimals the one closest to it. `Binary64.shortest` gives the digits and the power of ten of the last one.
-/
namespace UiCatalog.Binary64

/-- The number of decimal digits of a natural number; zero has one. -/
def digitCount (n : Nat) : Nat := (Nat.toDigits 10 n).length

/-- The exponent of the first decimal digit of the positive ratio `num / den`. -/
def decimalExponent (num den : Nat) : Int :=
  if den ≤ num then (digitCount (num / den) : Int) - 1
  else
    let n := digitCount (den / num)
    if den ≤ num * tenPower (n - 1) then 1 - (n : Int) else -(n : Int)

/-- A point `count · 10 ^ place` of a decimal grid, as a ratio. -/
def gridPoint (count : Nat) (place : Int) : Nat × Nat :=
  (count * tenPower place.toNat, tenPower (-place).toNat)

/-- The ends of the interval of ratios that round to a number, in units of a quarter of its last bit. -/
def neighbourhood (x : Binary64) : Nat × Nat :=
  let low := if x.mantissa = twoPower 52 ∧ x.exponent > minExponent then 1 else 2
  (4 * x.mantissa - low, 4 * x.mantissa + 2)

/-- The ratio rounds to the number; the ends belong to a number with an even mantissa. -/
def rounds (x : Binary64) (num den : Nat) : Bool :=
  let (low, high) := x.neighbourhood
  let unit := twoPower x.exponent.toNat
  let quarter := 4 * twoPower (-x.exponent).toNat
  let left := low * unit * den
  let middle := num * quarter
  let right := high * unit * den
  if x.mantissa % 2 = 0 then left ≤ middle && middle ≤ right
  else left < middle && middle < right

/-- The distance between two ratios over their common denominator. -/
def distance (a b : Nat × Nat) : Nat :=
  let x := a.1 * b.2
  let y := b.1 * a.2
  (x - y) + (y - x)

/-- The best point of the grid at `place`: of the two around the number, one that rounds to it. -/
def gridHit? (x : Binary64) (place : Int) : Option Nat :=
  let (num, den) := x.ratio
  let (n, d) := (num * tenPower (-place).toNat, den * tenPower place.toNat)
  let below := n / d
  let hits (count : Nat) := let (a, b) := gridPoint count place; rounds x a b
  match hits below, hits (below + 1) with
  | true, true =>
    let lower := distance (gridPoint below place) (num, den)
    let upper := distance (gridPoint (below + 1) place) (num, den)
    if lower < upper || (lower == upper && below % 2 == 0) then some below else some (below + 1)
  | true, false => some below
  | false, true => some (below + 1)
  | false, false => none

/-- Takes zeros off the end of a number, each one adding to the place. -/
def stripZeros : Nat → Nat → Int → Nat × Int
  | 0, n, place => (n, place)
  | fuel + 1, n, place =>
    if n ≠ 0 ∧ n % 10 = 0 then stripZeros fuel (n / 10) (place + 1) else (n, place)

/-- The digits and the place of the last one for the first grid, from `digits` digits on, with a hit. -/
def searchGrids (x : Binary64) (exponent : Int) : Nat → Nat → Nat × Int
  | 0, digits => ((gridHit? x (exponent - digits)).getD 0, exponent - digits)
  | more + 1, digits =>
    match gridHit? x (exponent - digits) with
    | some count => stripZeros 20 count (exponent - digits)
    | none => searchGrids x exponent more (digits + 1)

/-- The fewest digits whose nearest number is `x`, and the power of ten of the last of them. -/
def shortest (x : Binary64) : Nat × Int :=
  if x.isZero then (0, 0)
  else
    let (num, den) := x.ratio
    searchGrids x (decimalExponent num den) 17 0

end UiCatalog.Binary64
