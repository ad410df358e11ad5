import RehashChart.Binary64.Decimal

/-! # The shortest decimal text of a number

`shortest` tries one digit, two, and so on: if any decimal with so many digits reads back, then the
greatest one not above the number does, or the least one above. Where both do and are equally near,
a `Tie` says which one is taken.
-/

namespace RehashChart.Binary64

/-- Decimal digits and the place of the point: the number `0.d₁d₂… * 10 ^ point`. -/
structure Digits where
  digits : List Char
  point : Int

/-- The rational numbers that are nearer to `mantissa * 2 ^ exponent` than to its neighbours. Both
ends belong to them if the significand is even. -/
structure Basin where
  low : Rat
  high : Rat
  closed : Bool

/-- Below a power of two the next number is half as far away as above it. -/
def basinOf (mantissa : Nat) (exponent : Int) : Basin where
  low :=
    if mantissa = fullSignificand ∧ -1074 < exponent then shifted (4 * mantissa - 1) (exponent - 2)
    else shifted (2 * mantissa - 1) (exponent - 1)
  high := shifted (2 * mantissa + 1) (exponent - 1)
  closed := mantissa % 2 = 0

def Basin.contains (b : Basin) (q : Rat) : Bool :=
  if b.closed then decide (b.low ≤ q) && decide (q ≤ b.high)
  else decide (b.low < q) && decide (q < b.high)

def pointOf (q : Rat) : Int :=
  if 1 ≤ q then Decimal.length q.floor.toNat
  else 1 - Decimal.length ((1 / q).ceil.toNat - 1)

/-- Which of two decimals is taken that are equally near to a number. -/
inductive Tie where
  /-- The one farther from zero. -/
  | up
  /-- The one whose last digit is even. -/
  | even
  deriving DecidableEq

def Tie.choose (tie : Tie) (below : Nat) : Nat :=
  match tie with
  | up => below + 1
  | even => below + below % 2

/-- Of the two decimals around `q` with `count` digits, the one nearer to it that reads back. -/
def candidate (tie : Tie) (q : Rat) (basin : Basin) (point : Int) (count : Nat) : Option Nat :=
  let unit := tenTo (point - count)
  let below := (q / unit).floor.toNat
  let above := below + 1
  let lower : Rat := below * unit
  let upper : Rat := above * unit
  match basin.contains lower, basin.contains upper with
  | true, true =>
      if q - lower < upper - q then some below
      else if upper - q < q - lower then some above
      else some (tie.choose below)
  | true, false => some below
  | false, true => some above
  | false, false => none

def search (tie : Tie) (q : Rat) (basin : Basin) (point : Int) : Nat → Nat → Nat × Nat
  | 0, count => ((q / tenTo (point - count)).floor.toNat, count)
  | more + 1, count =>
      match candidate tie q basin point count with
      | some n => (n, count)
      | none => search tie q basin point more (count + 1)

def withoutTrailingZeros (digits : List Char) : List Char :=
  (digits.reverse.dropWhile (· = '0')).reverse

/-- The shortest digits of a positive number. Rounding up to a power of ten moves the point. -/
def shortest (tie : Tie) (mantissa : Nat) (exponent : Int) : Digits :=
  let q := shifted mantissa exponent
  let point := pointOf q
  let (n, count) := search tie q (basinOf mantissa exponent) point 17 1
  let digits := Nat.toDigits 10 n
  ⟨withoutTrailingZeros digits, point + (digits.length - count)⟩

/-! ## Layouts -/

def zeros (n : Nat) : List Char := List.replicate n '0'

/-- Digits with the point where it belongs and no exponent; `whole` follows a whole number. -/
def Digits.positional (d : Digits) (whole : List Char) : List Char :=
  if d.point ≤ 0 then '0' :: '.' :: zeros (-d.point).toNat ++ d.digits
  else if d.digits.length ≤ d.point then
    d.digits ++ zeros (d.point.toNat - d.digits.length) ++ whole
  else d.digits.take d.point.toNat ++ '.' :: d.digits.drop d.point.toNat

def Digits.scientific (d : Digits) : List Char :=
  let exponent := d.point - 1
  let sign := if exponent < 0 then '-' else '+'
  let power := 'e' :: sign :: Nat.toDigits 10 exponent.natAbs
  match d.digits with
  | [] => power
  | [c] => c :: power
  | c :: rest => c :: '.' :: rest ++ power

def signed (negative : Bool) (text : List Char) : String :=
  String.ofList (if negative then '-' :: text else text)

/-- The text of a number in messages: never with an exponent, and a whole number without a point.
A tie goes up. -/
def plainText : Binary64 → String
  | nan => "NaN"
  | infinity negative => signed negative ['i', 'n', 'f']
  | finite negative m e _ =>
      signed negative (if m = 0 then ['0'] else (shortest .up m e).positional [])

end RehashChart.Binary64
