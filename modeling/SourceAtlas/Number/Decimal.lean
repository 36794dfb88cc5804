/-
# SourceAtlas.Number.Decimal — doubles as decimal text.

Two written forms.  The shortest form has the fewest digits that read back as the same double, and
of those the digits nearest to its value.  The fixed form has a given number of places, rounded
from the exact binary value with halves going to the even neighbour.
-/
import SourceAtlas.Number.Binary64

namespace SourceAtlas.Number

/-- The digits of a natural in base ten. -/
def digitsOf (n : Nat) : List Char :=
  Nat.toDigits 10 n

/-- Whether `10 ^ k ≤ num / den`. -/
def reachesTen (k : Int) (num den : Nat) : Bool :=
  if 0 ≤ k then den * tenTo k.toNat ≤ num else den ≤ num * tenTo (-k).toNat

/-- The largest `k` with `10 ^ k ≤ num / den`, for positive `num` and `den`.  The estimate from the
binary logarithm is off by one at most. -/
def floorLog10 (num den : Nat) : Int :=
  let estimate := floorLog2 num den * 30103 / 100000
  if reachesTen (estimate + 1) num den then estimate + 1
  else if reachesTen estimate num den then estimate
  else estimate - 1

/-- The decimal `digits · 10 ^ exponent`. -/
structure Decimal where
  digits : Nat
  exponent : Int
  deriving DecidableEq, Repr

/-- Numerators over one denominator: the value, and the ends of the interval of reals that read as
it. -/
structure Interval where
  low : Nat
  value : Nat
  high : Nat
  den : Nat
  closed : Bool

/-- The interval of a positive double.  The lower gap is half as wide at a power of two. -/
def Interval.ofMagnitude (mantissa : Nat) (exponent : Int) : Interval :=
  let narrow := mantissa == twoTo 52 && leastExponent < exponent
  let (num, den) := scaleTwo 1 (exponent - 2)
  { low := (4 * mantissa - if narrow then 1 else 2) * num
    value := 4 * mantissa * num
    high := (4 * mantissa + 2) * num
    den := den
    closed := mantissa % 2 == 0 }

/-- Whether a decimal reads back as the double of the interval. -/
def Interval.holds (interval : Interval) (candidate : Decimal) : Bool :=
  let (point, unit) :=
    if 0 ≤ candidate.exponent then
      (candidate.digits * tenTo candidate.exponent.toNat * interval.den, 1)
    else (candidate.digits * interval.den, tenTo (-candidate.exponent).toNat)
  if interval.closed then interval.low * unit ≤ point && point ≤ interval.high * unit
  else interval.low * unit < point && point < interval.high * unit

/-- The decimal nearest to the value among those with `count` significant digits that read back. -/
def Interval.candidate? (interval : Interval) (leading : Int) (count : Nat) : Option Decimal :=
  let exponent := leading - (count - 1 : Nat)
  let (num, den) :=
    if 0 ≤ exponent then (interval.value, interval.den * tenTo exponent.toNat)
    else (interval.value * tenTo (-exponent).toNat, interval.den)
  let near := divNearest num den
  let other := if num / den == near then near + 1 else num / den
  if interval.holds ⟨near, exponent⟩ then some ⟨near, exponent⟩
  else if interval.holds ⟨other, exponent⟩ then some ⟨other, exponent⟩
  else none

/-- The shortest decimal that reads back as the positive double `mantissa · 2 ^ exponent`. -/
def shortestDecimal (mantissa : Nat) (exponent : Int) : Decimal :=
  let interval := Interval.ofMagnitude mantissa exponent
  let leading := floorLog10 interval.value interval.den
  ((List.range 17).findSome? fun count => interval.candidate? leading (count + 1)).getD ⟨0, 0⟩

/-- A decimal in positional notation, with at least one digit on both sides of the point. -/
def positional (digits : List Char) (point : Int) : List Char :=
  if point ≤ 0 then '0' :: '.' :: (List.replicate (-point).toNat '0' ++ digits)
  else
    let whole := digits.take point.toNat
    let rest := digits.drop point.toNat
    whole ++ List.replicate (point.toNat - whole.length) '0' ++ '.'
      :: (if rest.isEmpty then ['0'] else rest)

/-- A decimal in scientific notation; the exponent has a sign and at least two digits. -/
def scientific (digits : List Char) (power : Int) : List Char :=
  let power' := digitsOf power.natAbs
  digits.take 1 ++ (if digits.length ≤ 1 then [] else '.' :: digits.drop 1)
    ++ 'e' :: (if power < 0 then '-' else '+')
    :: (if power'.length < 2 then '0' :: power' else power')

/-- The shortest text of a double: positional from `1e-4` up to `1e16`, scientific outside. -/
def shortest (x : Float) : String :=
  match dyadic? x with
  | none => if x.isNaN then "nan" else if x < 0 then "-inf" else "inf"
  | some ⟨negative, mantissa, exponent⟩ =>
    let sign := if negative then ['-'] else []
    if mantissa == 0 then String.ofList (sign ++ ['0', '.', '0'])
    else
      let decimal := shortestDecimal mantissa exponent
      let all := digitsOf decimal.digits
      let digits := trimZeros all
      let point := decimal.exponent + all.length
      String.ofList <| sign ++
        if -4 < point && point ≤ 16 then positional digits point else scientific digits (point - 1)
where
  /-- The digits without zeros at the end. -/
  trimZeros (digits : List Char) : List Char :=
    (digits.reverse.dropWhile (· == '0')).reverse

/-- The magnitude of a double in units of `10 ^ -places`. -/
def unitsOf (places : Nat) (value : Dyadic) : Nat :=
  let (num, den) := scaleTwo value.mantissa value.exponent
  divNearest (num * tenTo places) den

/-- A double rounded to a number of decimal places, as a double. -/
def roundTo (places : Nat) (x : Float) : Float :=
  match dyadic? x with
  | none => x
  | some value => (nearest? value.negative (unitsOf places value) (tenTo places)).getD x

/-- The text of a double with a positive number of decimal places. -/
def fixed (places : Nat) (x : Float) : String :=
  match dyadic? x with
  | none => if x.isNaN then "nan" else if x < 0 then "-inf" else "inf"
  | some value =>
    let digits := digitsOf (unitsOf places value)
    let padded := List.replicate (places + 1 - digits.length) '0' ++ digits
    let cut := padded.length - places
    String.ofList ((if value.negative then ['-'] else [])
      ++ padded.take cut ++ '.' :: padded.drop cut)

end SourceAtlas.Number
