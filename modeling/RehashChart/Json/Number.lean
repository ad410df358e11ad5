import RehashChart.Binary64.Arithmetic
import RehashChart.Binary64.Decimal

/-! # Numbers in JSON text

A whole number of up to 64 bits is exact; every other one is worked out in binary64 arithmetic from
the first digits and a power of ten, and may differ in its last bit from the number that is nearest
to the text.
-/

namespace RehashChart.Json

/-- The parts of a number as they are written: digits, the digits after a point if there is one,
and an exponent with its sign. -/
structure Numeral where
  negative : Bool
  whole : List Char
  fraction : List Char
  /-- Whether the exponent is negative, and its digits. -/
  exponent : Option (Bool × List Char)
  deriving DecidableEq

inductive Worth where
  | natural (n : Nat)
  | negative (n : Nat)
  | float (x : Binary64)
  deriving DecidableEq

def greatestPower : Nat := 308

def powerOfTen (n : Nat) : Binary64 := .ofRat false (Binary64.tenTo n)

/-- A number times a power of ten. Powers beyond the greatest one are taken in steps of it; a
result too large for a number is none. -/
def scale (x : Binary64) (exponent : Int) : Option Binary64 :=
  if 0 ≤ exponent then
    if exponent ≤ greatestPower then
      let y := x * powerOfTen exponent.toNat
      if y.isFinite then some y else none
    else if x.eq 0 then some x
    else none
  else scaleDown x exponent.natAbs
where
  /-- A number divided by a power of ten. -/
  scaleDown (x : Binary64) (power : Nat) : Option Binary64 :=
    if power ≤ greatestPower then some (x / powerOfTen power)
    else if x.eq 0 then some x
    else scaleDown (x / powerOfTen greatestPower) (power - greatestPower)
  termination_by power
  decreasing_by
    unfold greatestPower at *
    omega

/-- Digits taken into a number as long as it fits 64 bits, and those that are left. -/
def takeDigits (value : Nat) : List Char → Nat × List Char
  | [] => (value, [])
  | c :: rest =>
      let next := 10 * value + Text.digitValue c
      if next < UInt64.size then takeDigits next rest else (value, c :: rest)

def greatestExponent : Nat := 2147483647

def clampExponent (n : Int) : Int :=
  max (-(greatestExponent + 1 : Int)) (min n greatestExponent)

def Numeral.toFloat (n : Numeral) : Option Binary64 :=
  let (start, beyond) := takeDigits 0 n.whole
  let (significand, left) := takeDigits start n.fraction
  let point : Int := beyond.length - (n.fraction.length - left.length : Nat)
  let magnitude :=
    match n.exponent with
    | none => scale (.ofNat significand) point
    | some (negative, digits) =>
        let power : Int := Binary64.digitsToNat digits
        if greatestExponent < power then
          if significand ≠ 0 ∧ !negative then none else some 0
        else
          scale (.ofNat significand) (clampExponent (point + if negative then -power else power))
  magnitude.map fun x => if n.negative then x.neg else x

def Numeral.worth (n : Numeral) : Option Worth :=
  let (value, beyond) := takeDigits 0 n.whole
  if n.fraction = [] ∧ n.exponent = none ∧ beyond = [] then
    if !n.negative then some (.natural value)
    else if value = 0 ∨ Text.maxInt64 + 1 < value then some (.float (Binary64.ofNat value).neg)
    else some (.negative value)
  else n.toFloat.map .float

end RehashChart.Json
