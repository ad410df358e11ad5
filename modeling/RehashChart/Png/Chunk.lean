import RehashChart.Png.Bytes
import RehashChart.Png.Checksum

/-! # Chunks of picture files

A chunk has a length, a kind, a content and a checksum over the latter two. A kind is four letters,
and a small first letter says that a picture can be read without chunks of that kind.
-/

namespace RehashChart.Png

def signature : ByteArray := ⟨#[0x89, 0x50, 0x4E, 0x47, 0x0D, 0x0A, 0x1A, 0x0A]⟩

/-! ## Kinds -/

def headerKind : UInt32 := 0x49484452
def dataKind : UInt32 := 0x49444154
def endKind : UInt32 := 0x49454E44

def paletteKind : UInt32 := 0x504C5445

def transparencyKind : UInt32 := 0x74524E53

/-- The place and the time of a frame of a moving picture, and its data. -/
def frameKind : UInt32 := 0x6663544C
def frameDataKind : UInt32 := 0x66644154

def isOptional (kind : UInt32) : Bool := kind &&& 0x20000000 ≠ 0

/-! ## Writing -/

structure Chunk where
  kind : UInt32
  bytes : ByteArray

def Chunk.encode (c : Chunk) : ByteArray :=
  let body := fourBytes c.kind ++ c.bytes
  fourBytes (UInt32.ofNat c.bytes.size) ++ body ++ fourBytes (crc body)

/-! ## Reading -/

def contentSize (file : ByteArray) (i : Nat) : Nat := (readFour file i).toNat

def nextChunk (file : ByteArray) (i : Nat) : Nat := i + 12 + contentSize file i

theorem size_sub_nextChunk_lt {file : ByteArray} {i : Nat} (h : ¬file.size < nextChunk file i) :
    file.size - nextChunk file i < file.size - i := by
  unfold nextChunk at *
  omega

def chunkAt (file : ByteArray) (i : Nat) : Chunk :=
  ⟨readFour file (i + 4), file.extract (i + 8) (i + 8 + contentSize file i)⟩

def isIntact (file : ByteArray) (i : Nat) : Bool :=
  let last := i + 8 + contentSize file i
  readFour file last = crc (file.extract (i + 4) last)

end RehashChart.Png
