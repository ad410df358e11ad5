import RehashChart.Png.Chunk
import RehashChart.Png.Rows

/-! # The head of a picture file

`readHead` reads the chunks before the data, and `readPieces` the data, which stands in chunks of
one kind that follow each other. A picture may have its data in the first frame of a moving picture.
-/

namespace RehashChart.Png

/-! ## The header -/

structure Header where
  width : UInt32
  height : UInt32
  /-- The number of bits of a channel, or of the place of a colour. -/
  depth : UInt8
  /-- What a pixel is. -/
  colours : UInt8
  isInterlaced : Bool

def Header.ofBytes? (bytes : ByteArray) : Option Header :=
  let width := readFour bytes 0
  let height := readFour bytes 4
  if bytes.size < 13 ∨ width = 0 ∨ height = 0 ∨ byteAt bytes 10 ≠ 0 ∨ byteAt bytes 11 ≠ 0 ∨
      1 < byteAt bytes 12 then
    none
  else
    some
      { width, height, depth := byteAt bytes 8, colours := byteAt bytes 9
        isInterlaced := byteAt bytes 12 = 1 }

/-- The values for what a pixel is: three channels, and the place of a colour in a palette. -/
def threeChannels : UInt8 := 2
def paletteColours : UInt8 := 3

/-! ## The chunks after it -/

structure Head where
  header : Header
  palette : Option ByteArray
  isTransparent : Bool
  /-- How many numbered chunks there are. -/
  numbered : Nat

def Head.ofHeader (header : Header) : Head :=
  { header, palette := none, isTransparent := false, numbered := 0 }

/-- The head with a palette of up to 256 colours. There is one palette only. -/
def Head.addPalette? (h : Head) (bytes : ByteArray) : Option Head :=
  if h.palette.isSome || bytes.size = 0 || 768 < bytes.size || bytes.size % 3 ≠ 0 then none
  else some { h with palette := some bytes }

/-- The head with transparent colours. They do not count where they have no meaning: three channels
are less than six bytes, or a palette is not there yet. -/
def Head.addTransparency (h : Head) (bytes : ByteArray) : Head :=
  let isMeant :=
    (h.header.colours = threeChannels && 6 ≤ bytes.size) ||
      (h.header.colours = paletteColours && h.palette.isSome)
  { h with isTransparent := h.isTransparent || isMeant }

def Head.addFrame? (h : Head) (bytes : ByteArray) : Option Head :=
  if bytes.size < 26 ∨ (readFour bytes 0).toNat ≠ h.numbered ∨
      readFour bytes 4 ≠ h.header.width ∨ readFour bytes 8 ≠ h.header.height ∨
      readFour bytes 12 ≠ 0 ∨ readFour bytes 16 ≠ 0 ∨ 2 < byteAt bytes 24 ∨
      1 < byteAt bytes 25 then
    none
  else some { h with numbered := h.numbered + 1 }

/-- The head with a chunk more. A chunk that is not known must be an optional one. -/
def Head.add? (h : Head) (chunk : Chunk) : Option Head :=
  if chunk.kind = paletteKind then h.addPalette? chunk.bytes
  else if chunk.kind = transparencyKind then some (h.addTransparency chunk.bytes)
  else if chunk.kind = frameKind then h.addFrame? chunk.bytes
  else if isOptional chunk.kind then some h
  else none

/-- How the pixels are written, if they have the three channels red, green and blue with eight bits
each. -/
def Head.layout? (h : Head) : Option Layout :=
  let depth := h.header.depth
  if h.isTransparent then none
  else if h.header.colours = threeChannels ∧ depth = 8 then some .channels
  else if h.header.colours = paletteColours ∧ depth ∈ [1, 2, 4, 8] then
    h.palette.map (.indexed depth.toNat)
  else none

/-- The head with the chunk that starts at a place. An optional chunk with a wrong checksum is left
out. -/
def Head.addAt? (h : Head) (file : ByteArray) (i : Nat) : Option Head :=
  let chunk := chunkAt file i
  if isIntact file i then h.add? chunk else if isOptional chunk.kind then some h else none

def isData (kind : UInt32) : Bool := kind = dataKind || kind = frameDataKind

/-- The head with the chunks from `i` on, up to the first one with data, and where that one
starts. -/
def readHeadFrom (file : ByteArray) (i : Nat) (head : Head) : Option (Head × Nat) :=
  if file.size < nextChunk file i then none
  else if isData (chunkAt file i).kind then some (head, i)
  else (head.addAt? file i).bind fun head => readHeadFrom file (nextChunk file i) head
termination_by file.size - i
decreasing_by exact size_sub_nextChunk_lt ‹_›

/-- The head of a file. The first chunk is the header. -/
def readHead (file : ByteArray) : Option (Head × Nat) := do
  let i := signature.size
  let first := chunkAt file i
  if (file.extract 0 i).data ≠ signature.data ∨ file.size < nextChunk file i ∨
      first.kind ≠ headerKind ∨ !isIntact file i then
    none
  else
    let header ← Header.ofBytes? first.bytes
    readHeadFrom file (nextChunk file i) (.ofHeader header)

/-! ## The data -/

/-- The data in the chunks from `i` on. The first chunk after them needs to have begun. -/
def readData (file : ByteArray) (i : Nat) : Option (List ByteArray) :=
  let chunk := chunkAt file i
  if file.size < i + 8 then none
  else if chunk.kind ≠ dataKind then some []
  else if file.size < nextChunk file i then none
  else if isIntact file i then (readData file (nextChunk file i)).map (chunk.bytes :: ·)
  else none
termination_by file.size - i
decreasing_by exact size_sub_nextChunk_lt ‹_›

/-- The same for the data of a frame. Each chunk starts with its number, and as it is an optional
one, its checksum does not matter. -/
def readFrameData (file : ByteArray) (number i : Nat) : Option (List ByteArray) :=
  let chunk := chunkAt file i
  if file.size < i + 8 then none
  else if chunk.kind ≠ frameDataKind then some []
  else if file.size < nextChunk file i then none
  else if chunk.bytes.size < 4 ∨ (readFour chunk.bytes 0).toNat ≠ number then none
  else
    (readFrameData file (number + 1) (nextChunk file i)).map
      (chunk.bytes.extract 4 chunk.bytes.size :: ·)
termination_by file.size - i
decreasing_by exact size_sub_nextChunk_lt ‹_›

/-- The data that starts at `i`. Data of a frame comes after the frame. -/
def readPieces (file : ByteArray) (head : Head) (i : Nat) : Option (List ByteArray) :=
  if (chunkAt file i).kind = dataKind then readData file i
  else if head.numbered = 0 then none
  else readFrameData file head.numbered i

end RehashChart.Png
