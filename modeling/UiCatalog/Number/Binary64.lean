/-!
# Finite binary floating-point numbers of 64 bits

A finite number is a sign, a mantissa below `2 ^ 53` and a power of two. Every operation computes the exact
ratio and rounds it once, to the nearest number and to the even mantissa when two are equally near.
-/
namespace UiCatalog

def twoPower (n : Nat) : Nat := Nat.pow 2 n

def tenPower (n : Nat) : Nat := Nat.pow 10 n

/-- The number `± mantissa · 2 ^ exponent`. -/
structure Binary64 where
  negative : Bool
  mantissa : Nat
  exponent : Int
  deriving DecidableEq, Repr

namespace Binary64

/-- The least power of two. -/
def minExponent : Int := -1074

/-- The power of two of the largest numbers. -/
def maxExponent : Int := 971

def zero (negative : Bool) : Binary64 := ⟨negative, 0, minExponent⟩

def isZero (x : Binary64) : Bool := x.mantissa == 0

def ratio (x : Binary64) : Nat × Nat :=
  (x.mantissa * twoPower x.exponent.toNat, twoPower (-x.exponent).toNat)

/-- The quotient to the nearest integer, a half to the even one. -/
def roundQuotient (num den : Nat) : Nat :=
  let q := num / den
  let r := 2 * (num % den)
  if r < den then q
  else if r > den then q + 1
  else if q % 2 = 0 then q else q + 1

/-- The ratio `num / den` divided by `2 ^ e`, as a ratio. -/
def scaled (num den : Nat) (e : Int) : Nat × Nat :=
  (num * twoPower (-e).toNat, den * twoPower e.toNat)

/-- The power of two at which the mantissa of `num / den` has 53 bits, but not below the least one. -/
def exponentOf (num den : Nat) : Int :=
  let e : Int := (num.log2 : Int) - (den.log2 : Int) - 52
  let (n, d) := scaled num den e
  let e := if n < twoPower 52 * d then e - 1 else e
  if e < minExponent then minExponent else e

/-- The number nearest to `± num / den`; none if it is out of range. -/
def ofRatio? (negative : Bool) (num den : Nat) : Option Binary64 :=
  if num = 0 then some (zero negative)
  else
    let e := exponentOf num den
    let (n, d) := scaled num den e
    let m := roundQuotient n d
    let (m, e) := if m = twoPower 53 then (twoPower 52, e + 1) else (m, e)
    if e > maxExponent then none else some ⟨negative, m, e⟩

def ofNat? (n : Nat) : Option Binary64 := ofRatio? false n 1

/-- The number nearest to `10 ^ n`. -/
def tenPower? (n : Nat) : Option Binary64 := ofNat? (tenPower n)

def mul? (x y : Binary64) : Option Binary64 :=
  let (a, b) := x.ratio
  let (c, d) := y.ratio
  ofRatio? (x.negative != y.negative) (a * c) (b * d)

def div? (x y : Binary64) : Option Binary64 :=
  let (a, b) := x.ratio
  let (c, d) := y.ratio
  if c = 0 then none else ofRatio? (x.negative != y.negative) (a * d) (b * c)

end Binary64

end UiCatalog
