import RehashChart.Png.Bytes

/-! # Bits of packed data

The bits of a byte follow each other from the lowest one on. The data may be the beginning of longer
data, so a reader that has to stop says whether more data could help.
-/

namespace RehashChart.Png

inductive Stop where
  /-- There is no more data, or no more room for what it stands for. -/
  | short
  /-- What is there is wrong, whatever follows. -/
  | faulty
  deriving DecidableEq

abbrev BitReader (α : Type) := ByteArray → Nat → Except Stop (α × Nat)

def bitAt (bytes : ByteArray) (p : Nat) : Nat :=
  ((byteAt bytes (p / 8) >>> UInt8.ofNat (p % 8)) &&& 1).toNat

/-- The number in a count of bits, the lowest one first. -/
def bitsAt (bytes : ByteArray) : Nat → Nat → Nat
  | 0, _ => 0
  | count + 1, p => bitAt bytes p + 2 * bitsAt bytes count (p + 1)

def readUpTo (next : Nat) (a : α) (bytes : ByteArray) : Except Stop (α × Nat) :=
  if next ≤ 8 * bytes.size then .ok (a, next) else .error .short

def readBits (count : Nat) : BitReader Nat := fun bytes p =>
  readUpTo (p + count) (bitsAt bytes count p) bytes

/-- The first byte that starts at a bit or after it. -/
def nextByte (p : Nat) : Nat := (p + 7) / 8

end RehashChart.Png
