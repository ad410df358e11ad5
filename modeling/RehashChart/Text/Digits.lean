/-! # Whole numbers in decimal digits

Reading stops at the first digit that would lead beyond the bound, so no text is ever wrapped or cut
to a number it does not stand for.
-/

namespace RehashChart.Text

def digitValue (c : Char) : Nat := c.toNat - '0'.toNat

/-- Reads digits after a part worth `value`, as long as the number stays within `bound`. -/
def readDigits (bound value : Nat) : List Char → Option Nat
  | [] => some value
  | c :: cs =>
      if c.isDigit then
        let next := 10 * value + digitValue c
        if next ≤ bound then readDigits bound next cs else none
      else none

def readBounded (bound : Nat) : List Char → Option Nat
  | [] => none
  | cs => readDigits bound 0 cs

/-- A number that is at most `bound`: digits, with one plus sign before them or none. -/
def readUnsigned (bound : Nat) : List Char → Option Nat
  | '+' :: cs => readBounded bound cs
  | cs => readBounded bound cs

def maxNat64 : Nat := UInt64.size - 1

/-- A number of 64 bits without a sign bit. -/
def readNat64 (text : List Char) : Option Nat := readUnsigned maxNat64 text

def maxInt64 : Nat := 9223372036854775807

/-- A number of 64 bits with a sign bit: digits, with one sign before them or none. -/
def readInt64 : List Char → Option Int
  | '-' :: cs => (readBounded (maxInt64 + 1) cs).map fun n : Nat => -(n : Int)
  | cs => (readUnsigned maxInt64 cs).map fun n : Nat => (n : Int)

/-! ## Other bases -/

def hexValue (c : Char) : Nat :=
  if c.isDigit then digitValue c
  else if 'a' ≤ c ∧ c ≤ 'f' then c.toNat - 'a'.toNat + 10
  else c.toNat - 'A'.toNat + 10

def isHexDigit (c : Char) : Bool :=
  c.isDigit || ('a' ≤ c && c ≤ 'f') || ('A' ≤ c && c ≤ 'F')

def ofBase (base : Nat) (digits : List Char) : Nat :=
  digits.foldl (fun n c => base * n + hexValue c) 0

end RehashChart.Text
