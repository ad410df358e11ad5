/-! # Checksums of picture files -/

namespace RehashChart.Png

/-- One bit of the remainder: a shift, and the polynomial if a one falls out. -/
def crcBit (c : UInt32) : UInt32 := if c &&& 1 = 1 then (c >>> 1) ^^^ 0xEDB88320 else c >>> 1

def crcTable : Array UInt32 := Array.ofFn fun i : Fin 256 => Nat.repeat crcBit 8 (UInt32.ofNat i)

def crcByte (c : UInt32) (byte : UInt8) : UInt32 :=
  crcTable.getD ((c ^^^ byte.toUInt32) &&& 0xFF).toNat 0 ^^^ (c >>> 8)

def crc (bytes : ByteArray) : UInt32 := bytes.foldl crcByte 0xFFFFFFFF ^^^ 0xFFFFFFFF

def adlerModulus : UInt32 := 65521

/-- The sum of the bytes so far, and the sum of those sums. -/
def adlerByte (sums : UInt32 × UInt32) (byte : UInt8) : UInt32 × UInt32 :=
  let low := (sums.1 + byte.toUInt32) % adlerModulus
  (low, (sums.2 + low) % adlerModulus)

def adler (bytes : ByteArray) : UInt32 :=
  let (low, high) := bytes.foldl adlerByte (1, 0)
  (high <<< 16) ||| low

end RehashChart.Png
