import RehashChart.Png.Bytes

/-! # Rows of pictures

Rows are written as differences to what the neighbours let expect. A picture may also be written in
passes, each of which holds the pixels at regular distances.
-/

namespace RehashChart.Png

/-! ## Predictors -/

inductive Predictor where
  | zero
  | left
  | above
  | average
  | nearest
  deriving DecidableEq

def Predictor.ofByte? : UInt8 → Option Predictor
  | 0 => some zero
  | 1 => some left
  | 2 => some above
  | 3 => some average
  | 4 => some nearest
  | _ => none

def distance (a b : Int) : Nat := (a - b).natAbs

/-- Of three bytes, the one nearest to the first two together less the third; of two that are as
near, the former. -/
def nearestOf (left above corner : UInt8) : UInt8 :=
  let estimate : Int := left.toNat + above.toNat - corner.toNat
  let toLeft := distance estimate left.toNat
  let toAbove := distance estimate above.toNat
  let toCorner := distance estimate corner.toNat
  if toLeft ≤ toAbove ∧ toLeft ≤ toCorner then left
  else if toAbove ≤ toCorner then above
  else corner

def Predictor.predict (left above corner : UInt8) : Predictor → UInt8
  | .zero => 0
  | .left => left
  | .above => above
  | .average => UInt8.ofNat ((left.toNat + above.toNat) / 2)
  | .nearest => nearestOf left above corner

/-- The next bytes of a row, after those in `row`, from the differences that start at `start`. The
byte `step` places to the left belongs to the same channel of the pixel before. -/
def Predictor.restoreFrom (predictor : Predictor) (step : Nat) (bytes : ByteArray) (start : Nat)
    (rowAbove : ByteArray) : Nat → ByteArray → ByteArray
  | 0, row => row
  | count + 1, row =>
      let i := row.size
      let left := if step ≤ i then byteAt row (i - step) else 0
      let corner := if step ≤ i then byteAt rowAbove (i - step) else 0
      let expected := predictor.predict left (byteAt rowAbove i) corner
      restoreFrom predictor step bytes start rowAbove count
        (row.push (byteAt bytes (start + i) + expected))

def Predictor.restore (predictor : Predictor) (step : Nat) (bytes : ByteArray) (start size : Nat)
    (rowAbove : ByteArray) : ByteArray :=
  match predictor with
  | .zero => bytes.extract start (start + size)
  | _ => predictor.restoreFrom step bytes start rowAbove size .empty

/-! ## Pixels -/

/-- How a pixel is written: as its three channels, or as the place of its colour in a palette, in a
number of bits. -/
inductive Layout where
  | channels
  | indexed (bits : Nat) (palette : ByteArray)

def Layout.bitsPerPixel : Layout → Nat
  | channels => 24
  | indexed bits _ => bits

def Layout.rowSize (layout : Layout) (width : Nat) : Nat := (width * layout.bitsPerPixel + 7) / 8

def Layout.step (layout : Layout) : Nat := max 1 (layout.bitsPerPixel / 8)

def indexAt (bits : Nat) (row : ByteArray) (x : Nat) : Nat :=
  let p := x * bits
  (byteAt row (p / 8)).toNat / Nat.pow 2 (8 - bits - p % 8) % Nat.pow 2 bits

def colourIn (palette : ByteArray) (i : Nat) : ByteArray :=
  if 3 * i + 3 ≤ palette.size then palette.extract (3 * i) (3 * i + 3) else ⟨#[0, 0, 0]⟩

def Layout.expand (layout : Layout) (width : Nat) (row : ByteArray) : ByteArray :=
  match layout with
  | .channels => row
  | .indexed bits palette =>
      concat ((List.range width).map fun x => colourIn palette (indexAt bits row x))

def readRows (layout : Layout) (width : Nat) (bytes : ByteArray) :
    Nat → Nat → ByteArray → ByteArray → Option (ByteArray × Nat)
  | 0, start, _, pixels => some (pixels, start)
  | count + 1, start, rowAbove, pixels =>
      let size := layout.rowSize width
      let next := start + 1 + size
      if bytes.size < next then none
      else
        match Predictor.ofByte? (byteAt bytes start) with
        | none => none
        | some predictor =>
            let row := predictor.restore layout.step bytes (start + 1) size rowAbove
            readRows layout width bytes count next row (pixels ++ layout.expand width row)

/-! ## Passes -/

/-- The pixels at regular distances from one on. -/
structure Pass where
  left : Nat
  top : Nat
  across : Nat
  down : Nat

def Pass.whole : Pass := ⟨0, 0, 1, 1⟩

def Pass.interlaced : List Pass :=
  [⟨0, 0, 8, 8⟩, ⟨4, 0, 8, 8⟩, ⟨0, 4, 4, 8⟩, ⟨2, 0, 4, 4⟩, ⟨0, 2, 2, 4⟩, ⟨1, 0, 2, 2⟩, ⟨0, 1, 1, 2⟩]

def Pass.width (p : Pass) (width : Nat) : Nat := (width - p.left + p.across - 1) / p.across

def Pass.height (p : Pass) (height : Nat) : Nat := (height - p.top + p.down - 1) / p.down

/-- How many rows of a pass are written. A pass without pixels has no rows. -/
def Pass.rows (p : Pass) (width height : Nat) : Nat :=
  if p.width width = 0 then 0 else p.height height

def Pass.all (isInterlaced : Bool) : List Pass := if isInterlaced then interlaced else [whole]

def Pass.covers (p : Pass) (x y : Nat) : Bool :=
  p.left ≤ x && p.top ≤ y && (x - p.left) % p.across = 0 && (y - p.top) % p.down = 0

def Pass.pixel (p : Pass) (width : Nat) (pixels : ByteArray) (x y : Nat) : ByteArray :=
  let i := 3 * ((y - p.top) / p.down * p.width width + (x - p.left) / p.across)
  pixels.extract i (i + 3)

/-! ## Sizes -/

def bytesNeeded (layout : Layout) (width height : Nat) : List Pass → Nat
  | [] => 0
  | pass :: passes =>
      pass.rows width height * (1 + layout.rowSize (pass.width width)) +
        bytesNeeded layout width height passes

/-- The number of bytes for which room is made. That takes the byte before a row into account also
where the rows have no pixels and are not written. -/
def bytesExpected (layout : Layout) (width height : Nat) : List Pass → Nat
  | [] => 0
  | pass :: passes =>
      pass.height height * (1 + layout.rowSize (pass.width width)) +
        bytesExpected layout width height passes

/-! ## Pictures -/

def readPasses (layout : Layout) (width height : Nat) (bytes : ByteArray) :
    List Pass → Nat → Option (List (Pass × ByteArray))
  | [], _ => some []
  | pass :: passes, start => do
      let rows := pass.rows width height
      let (pixels, next) ← readRows layout (pass.width width) bytes rows start .empty .empty
      let rest ← readPasses layout width height bytes passes next
      some ((pass, pixels) :: rest)

def weave (width height : Nat) (parts : List (Pass × ByteArray)) : ByteArray :=
  concat ((List.range height).flatMap fun y =>
    (List.range width).map fun x =>
      match parts.find? fun (pass, _) => pass.covers x y with
      | some (pass, pixels) => pass.pixel width pixels x y
      | none => .empty)

def readPixels (layout : Layout) (isInterlaced : Bool) (width height : Nat) (bytes : ByteArray) :
    Option ByteArray :=
  if isInterlaced then
    (readPasses layout width height bytes Pass.interlaced 0).map (weave width height)
  else (readRows layout width bytes height 0 .empty .empty).map (·.1)

end RehashChart.Png
