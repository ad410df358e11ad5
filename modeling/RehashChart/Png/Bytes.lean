/-! # Bytes of picture files

A picture file keeps its numbers with the highest byte first, the packed data in it with the lowest.
-/

namespace RehashChart.Png

/-! ## Pieces -/

/-- The bytes from `i` on in pieces of `size + 1` bytes, the last one maybe shorter. -/
def chopFrom (size : Nat) (bytes : ByteArray) (i : Nat) : List ByteArray :=
  if i + (size + 1) < bytes.size then
    bytes.extract i (i + (size + 1)) :: chopFrom size bytes (i + (size + 1))
  else [bytes.extract i bytes.size]
termination_by bytes.size - i

def concat (pieces : List ByteArray) : ByteArray := pieces.foldl (· ++ ·) .empty

/-! ## Numbers -/

def byteAt (bytes : ByteArray) (i : Nat) : UInt8 := bytes[i]?.getD 0

def byteOf (n : UInt32) (shift : UInt32) : UInt8 := (n >>> shift).toUInt8

def fourBytes (n : UInt32) : ByteArray :=
  ⟨#[byteOf n 24, byteOf n 16, byteOf n 8, byteOf n 0]⟩

def readFour (bytes : ByteArray) (i : Nat) : UInt32 :=
  ((byteAt bytes i).toUInt32 <<< 24) ||| ((byteAt bytes (i + 1)).toUInt32 <<< 16) |||
    ((byteAt bytes (i + 2)).toUInt32 <<< 8) ||| (byteAt bytes (i + 3)).toUInt32

/-- The low half of a number as two bytes, the lower one first. -/
def twoBytes (n : UInt32) : ByteArray := ⟨#[byteOf n 0, byteOf n 8]⟩

def readTwo (bytes : ByteArray) (i : Nat) : UInt32 :=
  (byteAt bytes i).toUInt32 ||| ((byteAt bytes (i + 1)).toUInt32 <<< 8)

end RehashChart.Png
