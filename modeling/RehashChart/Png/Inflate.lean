import RehashChart.Png.CodeBook

/-! # Unpacking data

`inflate` unpacks what there is of a stream, as far as there is room. `unpack` goes through a stream
in pieces and stops at the first piece with which it has enough, so what follows may be missing or
wrong.
-/

namespace RehashChart.Png

/-! ## Copies -/

/-- The least length of a copy and the number of bits that say how much longer it is, for each
symbol. -/
def copyLengths : Array (Nat × Nat) :=
  #[(3, 0), (4, 0), (5, 0), (6, 0), (7, 0), (8, 0), (9, 0), (10, 0), (11, 1), (13, 1), (15, 1),
    (17, 1), (19, 2), (23, 2), (27, 2), (31, 2), (35, 3), (43, 3), (51, 3), (59, 3), (67, 4),
    (83, 4), (99, 4), (115, 4), (131, 5), (163, 5), (195, 5), (227, 5), (258, 0)]

def copyDistances : Array (Nat × Nat) :=
  #[(1, 0), (2, 0), (3, 0), (4, 0), (5, 1), (7, 1), (9, 2), (13, 2), (17, 3), (25, 3), (33, 4),
    (49, 4), (65, 5), (97, 5), (129, 6), (193, 6), (257, 7), (385, 7), (513, 8), (769, 8),
    (1025, 9), (1537, 9), (2049, 10), (3073, 10), (4097, 11), (6145, 11), (8193, 12), (12289, 12),
    (16385, 13), (24577, 13)]

/-- The bytes with as many more at the end, each of which is the one at a distance before it. -/
def copyBack (distance : Nat) : Nat → ByteArray → ByteArray
  | 0, found => found
  | count + 1, found =>
      copyBack distance count (found.push (byteAt found (found.size - distance)))

/-! ## Tokens -/

inductive Token where
  | byte (b : UInt8)
  | pair (first second : UInt8)
  | copy (length distance : Nat)
  | blockEnd

/-- The most bits of two codewords that are read at once. -/
def pairBits : Nat := 12

/-- The byte after the one with the codeword from `p` to `next`, if the two are read at once: their
codewords are short, but the second one not as short as can be. Then neither is read before both are
whole. -/
def pairedByte? (letters : CodeBook) (bytes : ByteArray) (p next : Nat) : Option (UInt8 × Nat) := do
  let (symbol, last) ← letters.find? bytes next
  if symbol < endSymbol ∧ last - p ≤ pairBits ∧ next + 2 ≤ last then
    some (UInt8.ofNat symbol, last)
  else none

/-- What could be a codeword has to have more bits than these to be refused. -/
def distanceBits : Nat := 9

def readCopy (distances : CodeBook) (size symbol : Nat) : BitReader Token := fun bytes p =>
  match copyLengths[symbol - endSymbol - 1]? with
  | none => .error .faulty
  | some (leastLength, lengthMore) =>
      let next := p + lengthMore
      let distance? := do
        let (symbol, q) ← distances.find? bytes next
        let (leastDistance, distanceMore) ← copyDistances[symbol]?
        some (leastDistance + bitsAt bytes distanceMore q, q + distanceMore)
      match distance? with
      | none => .error (if next + distanceBits < 8 * bytes.size then .faulty else .short)
      | some (distance, last) => do
          let length := leastLength + bitsAt bytes lengthMore p
          let copy ← readUpTo last (.copy length distance) bytes
          if size < distance then throw .faulty
          return copy

def readToken (letters distances : CodeBook) (size : Nat) : BitReader Token := fun bytes p =>
  match letters.find? bytes p with
  | none => .error .faulty
  | some (symbol, next) =>
      if symbol < endSymbol then
        let first := UInt8.ofNat symbol
        match pairedByte? letters bytes p next with
        | some (second, last) => readUpTo last (.pair first second) bytes
        | none => readUpTo next (.byte first) bytes
      else if symbol = endSymbol then readUpTo next .blockEnd bytes
      else readCopy distances size symbol bytes next

/-! ## Blocks -/

structure Progress where
  found : ByteArray
  next : Except Stop Nat

/-- The end of a block is looked for with so many bits when there is no more room. -/
def endBits : Nat := 15

/-- Where a block ends for which there is no more room. Its end is found if it comes next and the
last token has not been cut short. -/
def endOfFull (letters : CodeBook) (room : Nat) (bytes : ByteArray) (p : Nat) (found : ByteArray) :
    Except Stop Nat :=
  match letters.find? bytes p with
  | some (symbol, next) =>
      if symbol = endSymbol ∧ found.size = room ∧ p + endBits ≤ 8 * bytes.size then .ok next
      else .error .short
  | none => .error .short

def readCodewords (letters distances : CodeBook) (room : Nat) (bytes : ByteArray) :
    Nat → Nat → ByteArray → Progress
  | 0, _, found => ⟨found, .error .short⟩
  | fuel + 1, p, found =>
      if room ≤ found.size then ⟨found, endOfFull letters room bytes p found⟩
      else
        match readToken letters distances found.size bytes p with
        | .error stop => ⟨found, .error stop⟩
        | .ok (.byte b, p) => readCodewords letters distances room bytes fuel p (found.push b)
        | .ok (.pair a b, p) =>
            readCodewords letters distances room bytes fuel p ((found.push a).push b)
        | .ok (.copy length distance, p) =>
            readCodewords letters distances room bytes fuel p (copyBack distance length found)
        | .ok (.blockEnd, p) => ⟨found, .ok p⟩

def readStored (room : Nat) (bytes : ByteArray) (i : Nat) (found : ByteArray) : Progress :=
  let size := readTwo bytes i
  let next := i + 4 + size.toNat
  if bytes.size < i + 4 then ⟨found, .error .short⟩
  else if readTwo bytes (i + 2) ≠ size ^^^ 0xFFFF then ⟨found, .error .faulty⟩
  else
    let isWhole := next ≤ bytes.size && found.size + size.toNat ≤ room
    ⟨found ++ bytes.extract (i + 4) next, if isWhole then .ok (8 * next) else .error .short⟩

def fixedLetters : CodeBook :=
  .ofLengths (List.replicate 144 8 ++ List.replicate 112 9 ++ List.replicate 24 7 ++
    List.replicate 8 8)

def fixedDistances : CodeBook := .ofLengths (List.replicate 32 5)

/-- The bits of the least block: whether it is the last one, how it is packed, and its end. -/
def leastBlock : Nat := 10

/-- Unpacks a block. One with the fixed code books that is empty ends also where there is no more
room. -/
def readBlock (room : Nat) (bytes : ByteArray) (p : Nat) (found : ByteArray) : Progress :=
  if 8 * bytes.size < p + leastBlock then ⟨found, .error .short⟩
  else
    let fuel := 8 * bytes.size
    match bitsAt bytes 2 (p + 1) with
    | 0 => readStored room bytes (nextByte (p + 3)) found
    | 1 =>
        if bitsAt bytes 7 (p + 3) = 0 then ⟨found, .ok (p + leastBlock)⟩
        else readCodewords fixedLetters fixedDistances room bytes fuel (p + 3) found
    | 2 =>
        match readCodeBooks bytes (p + 3) with
        | .error stop => ⟨found, .error stop⟩
        | .ok ((letters, distances), p) => readCodewords letters distances room bytes fuel p found
    | _ => ⟨found, .error .faulty⟩

def readBlocks (room : Nat) (bytes : ByteArray) : Nat → Nat → ByteArray → Progress
  | 0, _, found => ⟨found, .error .short⟩
  | fuel + 1, p, found =>
      let block := readBlock room bytes p found
      match block.next with
      | .error _ => block
      | .ok next =>
          if bitAt bytes p = 1 then block else readBlocks room bytes fuel next block.found

/-! ## Streams -/

def isStreamStart (first second : UInt8) : Bool :=
  first &&& 0x0F = 8 && first >>> 4 ≤ 7 && second &&& 0x20 = 0 &&
    (256 * first.toNat + second.toNat) % 31 = 0

structure Unpacked where
  bytes : ByteArray
  isWhole : Bool

/-- Unpacks what there is of a stream, as long as there is less than `room`. The checksum at the end
belongs to a whole stream, but it is not compared: the chunks that the stream is cut into have their
own. -/
def inflate (room : Nat) (stream : ByteArray) : Option Unpacked :=
  if stream.size < 2 then some ⟨.empty, false⟩
  else if !isStreamStart (byteAt stream 0) (byteAt stream 1) then none
  else
    let blocks := readBlocks room stream (8 * stream.size) 16 .empty
    match blocks.next with
    | .ok p => some ⟨blocks.found, nextByte p + 4 ≤ stream.size⟩
    | .error .short => some ⟨blocks.found, false⟩
    | .error .faulty => none

/-- Whether nothing more has to be unpacked: there are the bytes that are needed, and nothing that
follows could refer to them, as the stream is whole or the room is full. -/
def Unpacked.isEnough (needed room : Nat) (u : Unpacked) : Bool :=
  needed ≤ u.bytes.size && (u.isWhole || room ≤ u.bytes.size)

def unpackFrom (needed room : Nat) (stream : ByteArray) : List ByteArray → Option ByteArray
  | [] => none
  | piece :: pieces =>
      match inflate room (stream ++ piece) with
      | none => none
      | some u =>
          if u.isEnough needed room then some u.bytes
          else unpackFrom needed room (stream ++ piece) pieces

/-- Unpacks a stream in pieces as far as needed. All of it may be unpacked at once, unless there is
something wrong with a piece that is not needed. -/
def unpack (needed room : Nat) (pieces : List ByteArray) : Option ByteArray :=
  match inflate room (concat pieces) with
  | some u => if u.isEnough needed room then some u.bytes else none
  | none => unpackFrom needed room .empty pieces

end RehashChart.Png
