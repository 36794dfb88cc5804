/-
# SourceAtlas.Number.Binary64 — doubles as exact fractions.

A finite double is a sign and a magnitude `mantissa · 2 ^ exponent`.  This module goes both ways:
the exact value of a double, and the double nearest to a fraction, where a fraction that lies
halfway between two doubles goes to the one with the even mantissa.
-/

namespace SourceAtlas.Number

/-- A power of two. -/
def twoTo (k : Nat) : Nat := Nat.pow 2 k

/-- A power of ten. -/
def tenTo (k : Nat) : Nat := Nat.pow 10 k

/-- The quotient of two naturals rounded to the nearest natural, a half to the even neighbour. -/
def divNearest (num den : Nat) : Nat :=
  let whole := num / den
  let twice := 2 * (num % den)
  if den < twice || (twice == den && whole % 2 == 1) then whole + 1 else whole

/-- The fraction `mantissa · 2 ^ exponent`, as numerator and denominator. -/
def scaleTwo (mantissa : Nat) (exponent : Int) : Nat × Nat :=
  if 0 ≤ exponent then (mantissa * twoTo exponent.toNat, 1) else (mantissa, twoTo (-exponent).toNat)

/-- A finite double. -/
structure Dyadic where
  negative : Bool
  mantissa : Nat
  exponent : Int
  deriving DecidableEq, Repr

/-- The exponent of the smallest positive double. -/
def leastExponent : Int := -1074

/-- The exact value of a double; infinities and non-numbers have none. -/
def dyadic? (x : Float) : Option Dyadic :=
  let bits := x.toBits.toNat
  let negative := bits / twoTo 63 == 1
  let biased := bits / twoTo 52 % twoTo 11
  let fraction := bits % twoTo 52
  if biased == 2047 then none
  else if biased == 0 then some ⟨negative, fraction, leastExponent⟩
  else some ⟨negative, fraction + twoTo 52, leastExponent + (biased - 1 : Nat)⟩

/-- The largest `k` with `2 ^ k ≤ num / den`, for positive `num` and `den`. -/
def floorLog2 (num den : Nat) : Int :=
  let k : Int := (num.log2 : Int) - (den.log2 : Int)
  let reached := if 0 ≤ k then den * twoTo k.toNat ≤ num else den ≤ num * twoTo (-k).toNat
  if reached then k else k - 1

/-- The bits of the double nearest to a positive fraction, or `none` above the largest double. -/
def nearestBits? (num den : Nat) : Option Nat :=
  let exponent := max (floorLog2 num den - 52) leastExponent
  let mantissa :=
    if 0 ≤ exponent then divNearest num (den * twoTo exponent.toNat)
    else divNearest (num * twoTo (-exponent).toNat) den
  let bits := (exponent - leastExponent).toNat * twoTo 52 + mantissa
  if bits < 2047 * twoTo 52 then some bits else none

/-- The double nearest to a fraction with a sign, or `none` if it is too big for a double. -/
def nearest? (negative : Bool) (num den : Nat) : Option Float :=
  let sign := if negative then twoTo 63 else 0
  if num == 0 then some (Float.ofBits (UInt64.ofNat sign))
  else (nearestBits? num den).map fun bits => Float.ofBits (UInt64.ofNat (sign + bits))

/-- The double nearest to an integer, or `none` if it is too big for a double. -/
def ofInt? (n : Int) : Option Float :=
  nearest? (n < 0) n.natAbs 1

/-- Positive infinity. -/
def infinity : Float := Float.ofBits 0x7FF0000000000000

/-- The value that is no number. -/
def notANumber : Float := Float.ofBits 0x7FF8000000000000

/-- The double nearest to `digits · 10 ^ exponent`, infinite beyond the largest double. -/
def ofDecimal (negative : Bool) (digits : Nat) (exponent : Int) : Float :=
  let huge := if negative then -infinity else infinity
  let magnitude : Int := (digits.log2 : Int) * 30103 / 100000 + exponent
  if digits == 0 then (nearest? negative 0 1).getD huge
  else if 400 < magnitude then huge
  else if magnitude < -400 then (nearest? negative 0 1).getD huge
  else if 0 ≤ exponent then (nearest? negative (digits * tenTo exponent.toNat) 1).getD huge
  else (nearest? negative digits (tenTo (-exponent).toNat)).getD huge

/-- The integer part of a finite double. -/
def truncate? (x : Float) : Option Int :=
  (dyadic? x).map fun value =>
    let (num, den) := scaleTwo value.mantissa value.exponent
    if value.negative then -((num / den : Nat) : Int) else (num / den : Nat)

/-- A key that orders the doubles other than non-numbers: the magnitude's bits with the sign.  Both
zeros have the key zero. -/
def orderKey (x : Float) : Int :=
  let bits := x.toBits.toNat
  if bits < twoTo 63 then (bits : Int) else -((bits - twoTo 63 : Nat) : Int)

end SourceAtlas.Number
