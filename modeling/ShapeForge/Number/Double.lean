/-!
# Binary floating-point numbers

A double is a signed integer of 53 bits times a power of two, or an infinity, or not a number.
Nothing here computes with rounded values: a double is made by rounding one exact ratio, and it is
compared with integers and other doubles exactly.
-/

namespace ShapeForge

/-- A number of the 64-bit binary format. The finite ones are `mantissa * 2 ^ exponent`, with the
sign kept apart so that there are two zeros. -/
inductive Double where
  | finite (negative : Bool) (mantissa : Nat) (exponent : Int)
  | infinite (negative : Bool)
  | nan
deriving Repr, DecidableEq, Inhabited

namespace Double

/-- The least exponent of a finite double. -/
def minExponent : Int := -1074

/-- The greatest exponent of a finite double. -/
def maxExponent : Int := 971

def zero (negative : Bool) : Double := .finite negative 0 minExponent

/-- The quotient rounded to the nearest integer, a half to the even one. -/
def roundDiv (num den : Nat) : Nat :=
  let q := num / den
  let r := num % den
  if 2 * r < den then q
  else if den < 2 * r then q + 1
  else if q % 2 == 0 then q else q + 1

/-- The greatest `e` with `2 ^ e ≤ num / den`, for a positive ratio. -/
def log2Ratio (num den : Nat) : Int :=
  let e : Int := (Nat.log2 num : Int) - (Nat.log2 den : Int)
  let below := if 0 ≤ e then num < den * Nat.pow 2 e.toNat else num * Nat.pow 2 (-e).toNat < den
  if below then e - 1 else e

/-- The double nearest to a ratio, of two equally near ones the even one. -/
def ofRatio (negative : Bool) (num den : Nat) : Double :=
  if num = 0 then
    zero negative
  else
    -- Below the normal doubles the exponent stays, and the mantissa has fewer bits.
    let q := max minExponent (log2Ratio num den - 52)
    let m :=
      if 0 ≤ q then roundDiv num (den * Nat.pow 2 q.toNat)
      else roundDiv (num * Nat.pow 2 (-q).toNat) den
    -- Rounding up may give one bit too many.
    let (m, q) := if m = Nat.pow 2 53 then (Nat.pow 2 52, q + 1) else (m, q)
    if maxExponent < q then .infinite negative else .finite negative m q

def decimalLength (n : Nat) : Nat := (Nat.toDigits 10 n).length

/-- The double nearest to `coefficient * 10 ^ exponent`. Decimal exponents far outside the format
are settled before any power of ten is formed. -/
def ofDecimal (negative : Bool) (coefficient : Nat) (exponent : Int) : Double :=
  let magnitude := (decimalLength coefficient : Int) + exponent
  if coefficient = 0 then zero negative
  else if 310 < magnitude then .infinite negative
  else if magnitude < -330 then zero negative
  else if 0 ≤ exponent then ofRatio negative (coefficient * Nat.pow 10 exponent.toNat) 1
  else ofRatio negative coefficient (Nat.pow 10 (-exponent).toNat)

/-- The double nearest to an integer. -/
def ofInt (i : Int) : Double := ofRatio (i < 0) i.natAbs 1

/-- The integer `d / 2 ^ q` of a finite double whose exponent is at least `q`. -/
def scaled (negative : Bool) (mantissa : Nat) (exponent q : Int) : Int :=
  let magnitude : Nat := mantissa * Nat.pow 2 (exponent - q).toNat
  if negative then -magnitude else magnitude

/-- How two doubles compare; not at all if one is not a number. -/
def compare? : Double → Double → Option Ordering
  | .nan, _ => none
  | _, .nan => none
  | .infinite a, .infinite b => some (compare b.toNat a.toNat)
  | .infinite a, .finite .. => some (if a then .lt else .gt)
  | .finite .., .infinite b => some (if b then .gt else .lt)
  | .finite a m p, .finite b n q =>
    let e := min p q
    some (compare (scaled a m p e) (scaled b n q e))

/-- How an integer compares with a double, exactly; not at all if that is not a number. -/
def compareInt? (i : Int) : Double → Option Ordering
  | .nan => none
  | .infinite b => some (if b then .gt else .lt)
  | .finite b n q =>
    let e := min 0 q
    some (compare (i * (Nat.pow 2 (-e).toNat : Nat)) (scaled b n q e))

/-- The integer part, with the fraction dropped; none if the number is not finite. -/
def truncate? : Double → Option Int
  | .finite negative m q =>
    let magnitude : Nat := if 0 ≤ q then m * Nat.pow 2 q.toNat else m / Nat.pow 2 (-q).toNat
    some (if negative then -magnitude else magnitude)
  | _ => none

/-- Whether the number is finite and has no fraction. -/
def isIntegral : Double → Bool
  | .finite _ m q => 0 ≤ q || m % Nat.pow 2 (-q).toNat == 0
  | _ => false

end Double

end ShapeForge
