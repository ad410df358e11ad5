/-! # Areas of a canvas

Rectangles of pixels, and the division of a canvas into a plot and the label areas around it. On a
small canvas the edges cross; they are sorted, so an area may be empty or lie outside the canvas.
-/

namespace RehashChart

/-- The pixels with `left ≤ x < right` and `top ≤ y < bottom`. -/
structure Area where
  left : Int
  top : Int
  right : Int
  bottom : Int
  deriving DecidableEq

/-- A place on the canvas, or off it. -/
structure Point where
  x : Int
  y : Int
  deriving DecidableEq

namespace Area

def width (a : Area) : Int := a.right - a.left

def height (a : Area) : Int := a.bottom - a.top

def Contains (a : Area) (x y : Int) : Prop := a.left ≤ x ∧ x < a.right ∧ a.top ≤ y ∧ y < a.bottom

instance (a : Area) (x y : Int) : Decidable (a.Contains x y) :=
  inferInstanceAs (Decidable (_ ∧ _))

def clamp (a : Area) (p : Point) : Point :=
  ⟨max a.left (min a.right p.x), max a.top (min a.bottom p.y)⟩

def between (p q : Point) : Area := ⟨min p.x q.x, min p.y q.y, max p.x q.x, max p.y q.y⟩

end Area

/-- Four edges in order, and so three intervals. -/
structure Cuts where
  first : Int
  second : Int
  third : Int
  fourth : Int
  deriving DecidableEq

def Cuts.of (a b c d : Int) : Cuts :=
  let low := max (min a b) (min c d)
  let high := min (max a b) (max c d)
  ⟨min (min a b) (min c d), min low high, max low high, max (max a b) (max c d)⟩

def margin : Int := 15

def titleHeight : Int := 26

def xLabelHeight : Int := 45

def yLabelWidth : Int := 60

structure Layout where
  columns : Cuts
  rows : Cuts
  deriving DecidableEq

namespace Layout

def ofSize (width height : Int) : Layout where
  columns := .of margin (width - margin) (margin + yLabelWidth) (width - margin)
  rows := .of (margin + titleHeight) (height - margin) (margin + titleHeight)
    (height - margin - xLabelHeight)

def plot (l : Layout) : Area := ⟨l.columns.second, l.rows.second, l.columns.third, l.rows.third⟩

/-- The label area above the plot; it exists on canvases that are too low only. -/
def above (l : Layout) : Area := ⟨l.columns.second, l.rows.first, l.columns.third, l.rows.second⟩

def below (l : Layout) : Area := ⟨l.columns.second, l.rows.third, l.columns.third, l.rows.fourth⟩

def leftOf (l : Layout) : Area := ⟨l.columns.first, l.rows.second, l.columns.second, l.rows.third⟩

/-- The label area to the right of the plot; it exists on canvases that are too narrow only. -/
def rightOf (l : Layout) : Area := ⟨l.columns.third, l.rows.second, l.columns.fourth, l.rows.third⟩

end Layout

end RehashChart
