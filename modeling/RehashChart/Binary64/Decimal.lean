import RehashChart.Binary64.Basic
import RehashChart.Text.Digits

/-! # Reading binary64 numbers from decimal text

A decimal text stands for an exact rational number, and its number is the one nearest to that.
-/

namespace RehashChart

/-- Digits and a power of ten: `digits * 10 ^ exponent`. -/
structure Decimal where
  negative : Bool
  digits : Nat
  exponent : Int

namespace Decimal

def length (n : Nat) : Nat := (Nat.toDigits 10 n).length

def toRat (d : Decimal) : Rat :=
  Binary64.scaled 10 (if d.negative then -(d.digits : Int) else d.digits) d.exponent

/-- The nearest number. A magnitude of `10 ^ 310` or more is an infinity and one below
`10 ^ -400` is a zero without a look at its digits. -/
def toBinary64 (d : Decimal) : Binary64 :=
  let point := length d.digits + d.exponent
  if d.digits = 0 then .zero d.negative
  else if 310 < point then .infinity d.negative
  else if point < -400 then .zero d.negative
  else .ofRat d.negative d.toRat

end Decimal

namespace Binary64

/-- The number that decimal digits stand for; what is no digit counts as the digit of its code. -/
def digitsToNat (digits : List Char) : Nat :=
  digits.foldl (fun n c => 10 * n + Text.digitValue c) 0

def spanDigits (text : List Char) : List Char × List Char :=
  (text.takeWhile Char.isDigit, text.dropWhile Char.isDigit)

def spanSign : List Char → Bool × List Char
  | '-' :: rest => (true, rest)
  | '+' :: rest => (false, rest)
  | rest => (false, rest)

def readExponent : List Char → Option Int
  | [] => some 0
  | c :: rest =>
      if c = 'e' || c = 'E' then
        let (negative, digits) := spanSign rest
        if digits ≠ [] && digits.all Char.isDigit then
          let n : Int := digitsToNat digits
          some (if negative then -n else n)
        else none
      else none

/-- Digits with a point among them, or before or after them, or without one, and an exponent. -/
def readMagnitude (negative : Bool) (text : List Char) : Option Decimal :=
  let (whole, rest) := spanDigits text
  let (fraction, rest) :=
    match rest with
    | '.' :: rest => spanDigits rest
    | rest => ([], rest)
  if whole = [] && fraction = [] then none
  else (readExponent rest).map fun e =>
    ⟨negative, digitsToNat (whole ++ fraction), e - fraction.length⟩

/-- Reads a sign, or none, and then a decimal number or the name of an infinity or of a NaN, in
letters of any case. -/
def read (text : List Char) : Option Binary64 :=
  let (negative, rest) := spanSign text
  let name := String.ofList (rest.map Char.toLower)
  if name = "inf" || name = "infinity" then some (infinity negative)
  else if name = "nan" then some nan
  else (readMagnitude negative rest).map Decimal.toBinary64

end Binary64

end RehashChart
