import ShapeForge.Number.Numeral

/-!
# Exact decimals

A decimal keeps every digit it is written with, trailing zeros too. Its plain text has no
exponent.
-/

namespace ShapeForge

/-- A decimal number: `coefficient * 10 ^ exponent` with a sign, an infinity, or not a number with
a payload. -/
inductive Decimal where
  | finite (negative : Bool) (coefficient : Nat) (exponent : Int)
  | infinite (negative : Bool)
  | nan (negative signaling : Bool) (payload : Nat)
deriving Repr, DecidableEq

namespace Decimal

/-- Reads the digits that may follow a not-a-number. -/
def payload? (cs : List Char) : Option Nat :=
  match Numeral.takeDigits cs with
  | (digits, []) => some (Numeral.ofDigits digits)
  | _ => none

/-- Reads a decimal. Underscores count for nothing, wherever they stand. -/
def read? (text : String) : Option Decimal :=
  let (negative, cs) := Numeral.takeSign ((Text.strip text.toList).filter (· ≠ '_'))
  if Numeral.spells "inf" cs || Numeral.spells "infinity" cs then
    some (.infinite negative)
  else if Numeral.spells "nan" (cs.take 3) then
    (payload? (cs.drop 3)).map (.nan negative false)
  else if Numeral.spells "snan" (cs.take 4) then
    (payload? (cs.drop 4)).map (.nan negative true)
  else
    (Numeral.decimal? cs).map fun (c, e) => .finite negative c e

/-- The digits of a finite decimal with a point before the last `places` of them. -/
def withPoint (digits : List Char) (places : Nat) : List Char :=
  let digits := List.replicate (places + 1 - digits.length) '0' ++ digits
  let whole := digits.take (digits.length - places)
  if places = 0 then whole else whole ++ '.' :: digits.drop (digits.length - places)

/-- The text without an exponent. -/
def plain : Decimal → String
  | .finite negative c e =>
    let sign := if negative then "-" else ""
    let digits := Nat.toDigits 10 c
    if e ≤ 0 then sign ++ String.ofList (withPoint digits (-e).toNat)
    else if c = 0 then sign ++ "0"
    else sign ++ String.ofList (digits ++ List.replicate e.toNat '0')
  | .infinite negative => if negative then "-Infinity" else "Infinity"
  | .nan negative signaling payload =>
    (if negative then "-" else "") ++ (if signaling then "sNaN" else "NaN")
      ++ (if payload = 0 then "" else payload.repr)

/-- The integer part, with the fraction dropped; none if the number is not finite. -/
def truncate? : Decimal → Option Int
  | .finite negative c e =>
    some (Numeral.signed negative
      (if 0 ≤ e then c * Nat.pow 10 e.toNat else c / Nat.pow 10 (-e).toNat))
  | _ => none

/-- The nearest double; a signaling not-a-number has none. -/
def toDouble? : Decimal → Option Double
  | .finite negative c e => some (Double.ofDecimal negative c e)
  | .infinite negative => some (.infinite negative)
  | .nan _ signaling _ => if signaling then none else some .nan

end Decimal

end ShapeForge
