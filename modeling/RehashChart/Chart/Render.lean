import RehashChart.Chart.Drawing
import RehashChart.Chart.Raster

/-! # Rendered charts

A chart becomes a picture together with the corners of its bars. `RenderedChart.pixel` reads one
pixel back, at an address worked out in words of sixty-four bits, which are too short for some
pixels.
-/

namespace RehashChart

def maxCanvasSide : Nat := 16384

structure RenderError where
  width : Nat
  height : Nat
  deriving DecidableEq

def RenderError.message (e : RenderError) : String :=
  s!"Failed to render chart: Canvas of {e.width} x {e.height} px is outside " ++
    s!"1..={maxCanvasSide} px per side"

/-- A picture of a chart, three bytes a pixel and row by row, and the corners of the bars in it.
The buffer holds the whole picture if it comes from a chart; it need not otherwise. -/
structure RenderedChart where
  width : UInt32
  height : UInt32
  pixels : ByteArray
  barAreas : List Area

/-- What a build does with a sum or product that is too large for its word. -/
inductive Overflow where
  | checked
  | wrapping

def Overflow.word : Overflow → Nat → Option Nat
  | .checked, n => if n < UInt64.size then some n else none
  | .wrapping, n => some (n % UInt64.size)

namespace RenderedChart

/-- What reading a pixel leads to. -/
inductive Sight where
  | outside
  | colour (c : Colour)
  /-- The program stops: an address does not fit its word, or the buffer ends before it. -/
  | missing
  deriving DecidableEq

/-- Where the bytes of the pixel at `(x, y)` begin, worked out in words. -/
def addressIn (overflow : Overflow) (picture : RenderedChart) (x y : UInt32) : Option Nat := do
  let row ← overflow.word (y.toNat * picture.width.toNat)
  let place ← overflow.word (row + x.toNat)
  overflow.word (place * 3)

def colourIn (overflow : Overflow) (bytes : ByteArray) (i : Nat) : Option Colour := do
  let red ← bytes[i]?
  let green ← bytes[← overflow.word (i + 1)]?
  let blue ← bytes[← overflow.word (i + 2)]?
  return ⟨red, green, blue⟩

def pixelIn (overflow : Overflow) (picture : RenderedChart) (x y : UInt32) : Sight :=
  if picture.width ≤ x ∨ picture.height ≤ y then .outside
  else
    match (addressIn overflow picture x y).bind (colourIn overflow picture.pixels) with
    | some c => .colour c
    | none => .missing

/-- A pixel as a build with checks reads it. -/
def pixel (picture : RenderedChart) (x y : UInt32) : Sight := pixelIn .checked picture x y

end RenderedChart

def isCanvas (width height : UInt32) : Bool :=
  width ≠ 0 && height ≠ 0 && width.toNat ≤ maxCanvasSide && height.toNat ≤ maxCanvasSide

namespace BarChart

def render (chart : BarChart) (width height : UInt32) : Except RenderError RenderedChart :=
  if isCanvas width height then
    let w := width.toNat
    let h := height.toNat
    .ok ⟨width, height, Raster.paint (chart.strokes w h) w h, chart.barAreas (Layout.ofSize w h)⟩
  else .error ⟨width.toNat, height.toNat⟩

end BarChart

end RehashChart
