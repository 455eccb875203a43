import ShapeForge.Number.Double

/-!
# Shortest decimals

Of all decimals that a double is the nearest double to, the shortest one, and of several shortest
ones the nearest. The decimals of a given number of digits form a grid around the value; the two
grid points next to it are the only candidates, so grids of one, two, … seventeen digits are tried
in turn.
-/

namespace ShapeForge.Shortest

/-- A positive value and the ends of the interval that rounds to it, as numerators over one
denominator; the ends belong to the interval or not. -/
structure Interval where
  low : Nat
  value : Nat
  high : Nat
  den : Nat
  closed : Bool

/-- The interval of the reals that round to `m * 2 ^ q`. Below a power of two the next double is
half as far away. -/
def interval (m : Nat) (q : Int) : Interval :=
  -- Numerators count quarters of `2 ^ q`.
  let below := if m == Nat.pow 2 52 && Double.minExponent < q then 1 else 2
  if 2 ≤ q then
    let unit := Nat.pow 2 (q.toNat - 2)
    ⟨(4 * m - below) * unit, 4 * m * unit, (4 * m + 2) * unit, 1, m % 2 == 0⟩
  else
    ⟨4 * m - below, 4 * m, 4 * m + 2, Nat.pow 2 (2 - q).toNat, m % 2 == 0⟩

/-- The numerator and the denominator of `10 ^ k`. -/
def powerOfTen (k : Int) : Nat × Nat :=
  if 0 ≤ k then (Nat.pow 10 k.toNat, 1) else (1, Nat.pow 10 (-k).toNat)

/-- Whether `num / den` is at least `10 ^ k`. -/
def atLeastPower (num den : Nat) (k : Int) : Bool :=
  let (a, b) := powerOfTen k
  den * a ≤ num * b

/-- The greatest `k` with `10 ^ k ≤ num / den`, for a positive ratio. The binary logarithm gives it
up to one. -/
def log10Ratio (num den : Nat) : Int :=
  -- `1233 / 4096` is a little less than the decimal logarithm of two.
  let guess := Int.fdiv (Double.log2Ratio num den * 1233) 4096
  if !atLeastPower num den guess then guess - 1
  else if atLeastPower num den (guess + 1) then guess + 1
  else guess

/-- Whether `c * 10 ^ k` lies in the interval. -/
def Interval.contains (i : Interval) (c : Nat) (k : Int) : Bool :=
  let (a, b) := powerOfTen k
  let x := c * a * i.den
  if i.closed then i.low * b ≤ x && x ≤ i.high * b else i.low * b < x && x < i.high * b

/-- The candidate on the grid of `10 ^ k`: the grid point below the value or the one above it, if
it lies in the interval; of both the nearer, at a tie the even one. -/
def Interval.candidate? (i : Interval) (k : Int) : Option Nat :=
  let (a, b) := powerOfTen k
  let step := a * i.den
  let x := i.value * b
  let c := x / step
  let r := x % step
  match i.contains c k, i.contains (c + 1) k with
  | true, true =>
    if 2 * r < step then some c
    else if step < 2 * r then some (c + 1)
    else if c % 2 == 0 then some c else some (c + 1)
  | true, false => some c
  | false, true => some (c + 1)
  | false, false => none

/-- Tries the grids with ever more digits. -/
def search (i : Interval) (log : Int) : Nat → Nat → Nat × Int
  | 0, digits => ((i.candidate? (log - digits)).getD 0, log - digits)
  | fuel + 1, digits =>
    match i.candidate? (log - digits) with
    | some c => (c, log - digits)
    | none => search i log fuel (digits + 1)

/-- Drops the zeros at the end of a coefficient and counts them into the exponent. -/
def normalize : Nat → Nat → Int → Nat × Int
  | 0, c, k => (c, k)
  | fuel + 1, c, k => if c ≠ 0 && c % 10 == 0 then normalize fuel (c / 10) (k + 1) else (c, k)

/-- The coefficient and the exponent of the shortest decimal of `m * 2 ^ q`, for a positive `m`. -/
def decimal (m : Nat) (q : Int) : Nat × Int :=
  let i := interval m q
  -- Seventeen digits tell all doubles apart, so the search never runs out.
  let (c, k) := search i (log10Ratio i.value i.den) 16 0
  normalize (Double.decimalLength c) c k

/-- The decisions of one way to write doubles. -/
structure Format where
  /-- The least decimal exponent that is written without an exponent. -/
  leastPositional : Int
  /-- The least greater one that is written with an exponent again. -/
  exponentFrom : Int
  /-- The least number of digits of an exponent. -/
  exponentWidth : Nat
  infinity : String
  notANumber : String

/-- Doubles of the emitted source: positional from `1e-04` up to below `1e+16`. -/
def Format.source : Format := ⟨-4, 16, 2, "inf", "nan"⟩

/-- Doubles of a JSON text. -/
def Format.json : Format := { Format.source with infinity := "Infinity", notANumber := "NaN" }

/-- A number of decimal digits, filled up with zeros in front. -/
def padded (width n : Nat) : String :=
  let digits := Nat.toDigits 10 n
  String.ofList (List.replicate (width - digits.length) '0' ++ digits)

/-- The text of a finite positive value with these digits, the first of which counts
`10 ^ exponent`. -/
def Format.layout (f : Format) (digits : List Char) (exponent : Int) : String :=
  if f.leastPositional ≤ exponent && exponent < f.exponentFrom then
    if exponent < 0 then
      "0." ++ String.ofList (List.replicate (-exponent - 1).toNat '0' ++ digits)
    else
      let whole := exponent.toNat + 1
      let fill := List.replicate (whole - digits.length) '0'
      let fraction := if digits.length ≤ whole then ['0'] else digits.drop whole
      String.ofList (digits.take whole ++ fill ++ '.' :: fraction)
  else
    let mantissa := match digits with
      | [] => []
      | [d] => [d]
      | d :: rest => d :: '.' :: rest
    let sign := if exponent < 0 then "-" else "+"
    String.ofList mantissa ++ "e" ++ sign ++ padded f.exponentWidth exponent.natAbs

def Format.write (f : Format) : Double → String
  | .nan => f.notANumber
  | .infinite negative => (if negative then "-" else "") ++ f.infinity
  | .finite negative m q =>
    let magnitude :=
      if m = 0 then
        f.layout ['0'] 0
      else
        let (c, k) := decimal m q
        let digits := Nat.toDigits 10 c
        f.layout digits (k + digits.length - 1)
    (if negative then "-" else "") ++ magnitude

end ShapeForge.Shortest

namespace ShapeForge

/-- The text of a double in the emitted source and in messages. -/
def Double.text (d : Double) : String := Shortest.Format.source.write d

end ShapeForge
