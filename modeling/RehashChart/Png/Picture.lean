import RehashChart.Png.Head
import RehashChart.Png.Inflate
import RehashChart.Png.Stored

/-! # Picture files

`encode` writes every row as it is, in blocks that are stored as they are. `decode` reads every way
in which such a picture can be packed, and pictures whose colours come from a palette.
-/

namespace RehashChart.Png

structure Picture where
  width : UInt32
  height : UInt32
  pixels : ByteArray

def Picture.isWhole (p : Picture) : Bool :=
  p.pixels.size = 3 * p.width.toNat * p.height.toNat

/-- Eight bits a channel, three channels, and the only methods there are. -/
def format : ByteArray := ⟨#[8, 2, 0, 0, 0]⟩

def header (p : Picture) : ByteArray := fourBytes p.width ++ fourBytes p.height ++ format

/-- The rows of a picture from row `y` on, each with a zero before it: it is written as it is. -/
def rowsFrom (rowSize : Nat) (pixels : ByteArray) : Nat → Nat → ByteArray → ByteArray
  | 0, _, bytes => bytes
  | rows + 1, y, bytes =>
      rowsFrom rowSize pixels rows (y + 1)
        (bytes.push 0 ++ pixels.extract (y * rowSize) ((y + 1) * rowSize))

def rows (p : Picture) : ByteArray := rowsFrom (3 * p.width.toNat) p.pixels p.height.toNat 0 .empty

def chunksOf (p : Picture) : List Chunk :=
  ⟨headerKind, header p⟩ :: (chopFrom (maxBlock - 1) (pack (rows p)) 0).map (⟨dataKind, ·⟩) ++
    [⟨endKind, .empty⟩]

def encode (p : Picture) : ByteArray :=
  concat (signature :: (chunksOf p).map Chunk.encode)

/-! ## Reading -/

/-- The picture in a file, if it has the three channels red, green and blue with eight bits each. -/
def decode (file : ByteArray) : Option Picture := do
  let (head, i) ← readHead file
  let layout ← head.layout?
  let pieces ← readPieces file head i
  let isInterlaced := head.header.isInterlaced
  let width := head.header.width.toNat
  let height := head.header.height.toNat
  let passes := Pass.all isInterlaced
  let needed := bytesNeeded layout width height passes
  let room := bytesExpected layout width height passes
  let bytes ← unpack needed room pieces
  let pixels ← readPixels layout isInterlaced width height bytes
  some ⟨head.header.width, head.header.height, pixels⟩

end RehashChart.Png
