import RehashChart.Chart.Ink

/-! # From strokes to bytes

Every stroke is laid over the part of a row that it covers, and the finished row goes to the end of
the buffer. No stroke reaches beyond the canvas, because only its visible part is painted.
-/

namespace RehashChart.Raster

/-- Changes `count` pixels of a row, from `first` on; `f` is told which of them it changes. -/
def paintSpan (f : Nat → Colour → Colour) (first : Nat) : Nat → Array Colour → Array Colour
  | 0, row => row
  | count + 1, row => paintSpan f first count (row.modify (first + count) (f count))

def paintStroke (width height y : Nat) (row : Array Colour) (s : Stroke) : Array Colour :=
  let (top, down) := visible s.area.top s.area.bottom height
  if top ≤ y ∧ y < top + down then
    let (left, across) := visible s.area.left s.area.right width
    paintSpan (fun i => s.ink.over i across) left across row
  else row

def paintRow (strokes : List Stroke) (width height y : Nat) : Array Colour :=
  strokes.foldl (paintStroke width height y) (Array.replicate width .black)

def pushColour (bytes : ByteArray) (c : Colour) : ByteArray :=
  ((bytes.push c.red).push c.green).push c.blue

/-- The rows from `y` on, at the end of a buffer. -/
def paintRows (strokes : List Stroke) (width height : Nat) : Nat → Nat → ByteArray → ByteArray
  | 0, _, bytes => bytes
  | rows + 1, y, bytes =>
      paintRows strokes width height rows (y + 1)
        ((paintRow strokes width height y).foldl pushColour bytes)

def paint (strokes : List Stroke) (width height : Nat) : ByteArray :=
  paintRows strokes width height height 0 (.emptyWithCapacity (3 * width * height))

end RehashChart.Raster
