import RehashChart.Chart.Area

/-! # Painting pixels

A picture is the result of strokes, one after the other, on a black canvas. `colourAt` says what
becomes of one pixel.
-/

namespace RehashChart

structure Colour where
  red : UInt8
  green : UInt8
  blue : UInt8
  deriving DecidableEq

namespace Colour

def black : Colour := ⟨0, 0, 0⟩
def white : Colour := ⟨255, 255, 255⟩

def bar : Colour := ⟨31, 119, 180⟩

instance : Inhabited Colour := ⟨black⟩

def mapChannels (f : UInt8 → UInt8) (c : Colour) : Colour := ⟨f c.red, f c.green, f c.blue⟩

end Colour

inductive Ink where
  | solid (colour : Colour)
  /-- White that lets a fifth of the ground through. -/
  | veil
  deriving DecidableEq

/-- The weight of white in a veil, of 256. -/
def veilWeight : Nat := 204

def veilEight (c : UInt8) : UInt8 :=
  UInt8.ofNat ((c.toNat * (256 - veilWeight) + 255 * veilWeight) / 256)

def veilOne (c : UInt8) : UInt8 :=
  UInt8.ofNat (c.toNat + (255 - c.toNat) * veilWeight / 256)

/-- Of a row of `count` pixels, how many from the left are blended eight at a time. -/
def eightfold (count : Nat) : Nat := 8 * ((count - 1) / 8)

/-- The colour that a pixel of colour `ground` gets, the one at `i` in a row of `count`. -/
def Ink.over (ink : Ink) (i count : Nat) (ground : Colour) : Colour :=
  match ink with
  | solid colour => colour
  | veil => ground.mapChannels (if i < eightfold count then veilEight else veilOne)

structure Stroke where
  area : Area
  ink : Ink
  deriving DecidableEq

/-- The part of `lo..hi` that lies on a canvas of `size` pixels: its first pixel and its length. -/
def visible (lo hi : Int) (size : Nat) : Nat × Nat :=
  let first := (max 0 lo).toNat
  (first, (min (size : Int) hi).toNat - first)

def Stroke.apply (s : Stroke) (width height x y : Nat) (ground : Colour) : Colour :=
  let (left, across) := visible s.area.left s.area.right width
  let (top, down) := visible s.area.top s.area.bottom height
  if left ≤ x ∧ x < left + across ∧ top ≤ y ∧ y < top + down then
    s.ink.over (x - left) across ground
  else ground

def colourAt (strokes : List Stroke) (width height x y : Nat) : Colour :=
  strokes.foldl (fun ground s => s.apply width height x y ground) .black

/-! ## Strokes -/

def fill (a : Area) (colour : Colour) : Stroke := ⟨a, .solid colour⟩

/-- The pixels of row `y` from `a` to the one before `b + 1`; from right to left the last ones on
both sides are left out. -/
def horizontal (y a b : Int) (colour : Colour) : Stroke :=
  fill ⟨min a (b + 1), y, max a (b + 1), y + 1⟩ colour

def vertical (x a b : Int) (colour : Colour) : Stroke :=
  fill ⟨x, min a b, x + 1, max a b + 1⟩ colour

def line (bounds : Area) (p q : Point) (colour : Colour) : Stroke :=
  let p := bounds.clamp p
  let q := bounds.clamp q
  if p.y = q.y then horizontal p.y p.x q.x colour else vertical p.x p.y q.y colour

def block (bounds : Area) (p q : Point) (ink : Ink) : Stroke :=
  ⟨.between (bounds.clamp p) (bounds.clamp q), ink⟩

end RehashChart
