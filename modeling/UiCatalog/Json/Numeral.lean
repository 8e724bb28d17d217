import UiCatalog.Json.Value

/-!
# Number literals

A number literal is a sign, digits, and perhaps a fraction and an exponent. Digits are gathered in a
significand of 64 bits; those that do not fit are dropped and only count for the power of ten. A literal
without fraction and exponent is an integer if it fits; every other one is computed from the significand
and the power of ten in floating point.
-/
namespace UiCatalog.Json

/-- A number literal by its parts. -/
structure Numeral where
  negative : Bool
  whole : List Char
  fraction : Option (List Char)
  /-- The exponent's sign, true for minus, and its digits. -/
  exponent : Option (Bool × List Char)
  deriving DecidableEq, Repr

namespace Numeral

def digitValue (c : Char) : Nat := c.toNat - '0'.toNat

/-- The first number that does not fit into 64 bits. -/
def wordBound : Nat := twoPower 64

/-- Gathers digits while they fit; the number of digits taken in, and those that are left. -/
def gather (significand : Nat) : List Char → Nat × Nat × List Char
  | [] => (significand, 0, [])
  | c :: cs =>
    let next := significand * 10 + digitValue c
    if next < wordBound then
      let (result, taken, left) := gather next cs
      (result, taken + 1, left)
    else (significand, 0, c :: cs)

/-- The digits after the point that count, if all others are dropped. -/
def gatherFraction (significand : Nat) (digits : List Char) : Nat × Nat :=
  let (result, taken, _) := gather significand digits
  (result, taken)

/-- The largest exponent that is read; a larger one is as good as an infinite one. -/
def exponentBound : Nat := 2147483647

def naturalOf (digits : List Char) : Nat := digits.foldl (fun n c => n * 10 + digitValue c) 0

/-- The exponent within the range of 32 bits. -/
def clamp (e : Int) : Int :=
  if e < -2147483648 then -2147483648 else if e > 2147483647 then 2147483647 else e

/-- The largest power of ten in range. -/
def maxTenPower : Nat := 308

/-- A number divided by `10 ^ 308` time and again until the exponent is small; zero stays. -/
def shrink : Nat → Binary64 → Nat → Option Binary64
  | 0, x, _ => some x
  | fuel + 1, x, exponent =>
    if exponent ≤ maxTenPower then (Binary64.tenPower? exponent).bind x.div?
    else if x.isZero then some x
    else do
      let smaller ← (Binary64.tenPower? maxTenPower).bind x.div?
      shrink fuel smaller (exponent - maxTenPower)

/-- The significand times the power of ten, rounded after each step; none if it is out of range. -/
def scale? (significand : Nat) (exponent : Int) : Option Binary64 := do
  let x ← Binary64.ofNat? significand
  if 0 ≤ exponent then
    if exponent ≤ maxTenPower then (← Binary64.tenPower? exponent.toNat).mul? x
    else if x.isZero then some x else none
  else shrink 8 x exponent.natAbs

/-- The significand and the power of ten before the exponent is added. -/
def parts (n : Numeral) : Nat × Int :=
  let (significand, _, dropped) := gather 0 n.whole
  let (significand, places) := gatherFraction significand (n.fraction.getD [])
  (significand, (dropped.length : Int) - places)

def magnitude? (n : Numeral) : Option Binary64 :=
  let (significand, exponent) := n.parts
  match n.exponent with
  | none => scale? significand exponent
  | some (isNegative, digits) =>
    let e := naturalOf digits
    if e ≤ exponentBound then
      scale? significand (clamp (if isNegative then exponent - e else exponent + e))
    else if significand ≠ 0 ∧ !isNegative then none
    else some (Binary64.zero false)

/-- The integer that a literal without fraction and exponent stands for, if it fits. -/
def integer? (n : Numeral) : Option Number :=
  if n.fraction.isSome || n.exponent.isSome then none
  else
    let value := naturalOf n.whole
    if n.negative then
      if 1 ≤ value ∧ value ≤ twoPower 63 then some (.negative (value - 1)) else none
    else if value < wordBound then some (.natural value) else none

/-- The number that a literal stands for; none if it is out of range. -/
def value? (n : Numeral) : Option Number :=
  match n.integer? with
  | some i => some i
  | none => n.magnitude?.map fun x => .float { x with negative := n.negative }

end Numeral

end UiCatalog.Json
