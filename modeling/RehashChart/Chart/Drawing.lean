import RehashChart.Chart.Bar
import RehashChart.Chart.Ink
import RehashChart.Chart.KeyPoints

/-! # Drawing a chart

A chart as a list of strokes: the white ground, the axes with their ticks, the bars and last the
legend over them. Text is not drawn.
-/

namespace RehashChart

/-- The pixel of `v` where `lo..hi` is spread over the pixels from `a` to `b`. -/
def pixelOf (v lo hi : Binary64) (a b : Int) : Int :=
  let share := (v - lo) / (hi - lo)
  let span := b - a
  let tolerance : Binary64 := .ofRat false (mkRat 1 1000)
  if span = 0 then b
  else if 0 < span then a + (Binary64.ofInt span * share + tolerance).floor.toInt32
  else a + (Binary64.ofInt span * share - tolerance).ceil.toInt32

namespace BarChart

def oneHalf : Binary64 := .ofRat false (mkRat 1 2)

def barWidth : Binary64 := .ofRat false (mkRat 35 100)

def halfBar : Binary64 := barWidth / 2

def column (chart : BarChart) (plot : Area) (x : Binary64) : Int :=
  pixelOf x (-oneHalf) (Binary64.ofNat chart.slots - oneHalf) plot.left (plot.right - 1)

def row (chart : BarChart) (plot : Area) (height : Nat) : Int :=
  pixelOf (Binary64.ofNat height) 0 (Binary64.ofNat chart.yMax) (plot.bottom - 1) plot.top

def barArea (chart : BarChart) (plot : Area) (bar : Bar) : Area :=
  let x := Binary64.ofNat bar.position
  ⟨chart.column plot (x - halfBar), chart.row plot bar.height.toNat,
    chart.column plot (x + halfBar), chart.row plot 0⟩

def barAreas (chart : BarChart) (layout : Layout) : List Area :=
  chart.bars.map (chart.barArea layout.plot)

/-! ## Axes -/

/-- The length of a tick: a twentieth of the shorter side of the plot, at most five pixels. -/
def tickLength (plot : Area) : Int :=
  let shorter := min plot.width.toNat plot.height.toNat
  min 5 (Binary64.ofRat false (mkRat 5 100) * Binary64.ofNat shorter).round.toInt32

def xKeyPoints (chart : BarChart) : List Binary64 :=
  KeyPoints.fractional (-oneHalf) (Binary64.ofNat chart.slots - oneHalf) chart.slots

def yKeyPoints (chart : BarChart) : List Nat := KeyPoints.whole chart.yMax

def isBetween (a b p : Int) : Bool := min a b ≤ p && p ≤ max a b

def tickColumns (chart : BarChart) (plot : Area) : List Int :=
  (chart.xKeyPoints.map (chart.column plot)).filter (isBetween plot.left (plot.right - 1))

def tickRows (chart : BarChart) (plot : Area) : List Int :=
  (chart.yKeyPoints.map (chart.row plot)).filter (isBetween (plot.bottom - 1) plot.top)

/-- An axis along a row of a label area, and its ticks, which lead to another row. -/
def horizontalAxis (labels plot : Area) (columns : List Int) (edge tip : Int) : List Stroke :=
  if labels.width = 0 ∨ labels.height = 0 then []
  else
    line labels ⟨labels.left, edge⟩ ⟨labels.left + (plot.right - 1 - plot.left), edge⟩ .black ::
      columns.map fun x => line labels ⟨x, min edge tip⟩ ⟨x, max edge tip⟩ .black

/-- An axis along a column of a label area, and its ticks, which lead to another column. -/
def verticalAxis (labels plot : Area) (rows : List Int) (edge tip : Int) : List Stroke :=
  if labels.width = 0 ∨ labels.height = 0 then []
  else
    line labels ⟨edge, labels.top + (plot.bottom - 1 - plot.top)⟩ ⟨edge, labels.top⟩ .black ::
      rows.map fun y => line labels ⟨min edge tip, y⟩ ⟨max edge tip, y⟩ .black

def axes (chart : BarChart) (layout : Layout) : List Stroke :=
  let plot := layout.plot
  let tick := tickLength plot
  let columns := chart.tickColumns plot
  let rows := chart.tickRows plot
  let above := layout.above
  let below := layout.below
  let leftOf := layout.leftOf
  let rightOf := layout.rightOf
  horizontalAxis above plot columns (above.bottom - 1) (above.bottom - 1 - tick) ++
    horizontalAxis below plot columns below.top (below.top + tick) ++
    verticalAxis leftOf plot rows (leftOf.right - 1) (leftOf.right - 1 - tick) ++
    verticalAxis rightOf plot rows rightOf.left (rightOf.left + tick)

/-! ## Bars -/

def barStrokes (chart : BarChart) (layout : Layout) : List Stroke :=
  (chart.barAreas layout).map fun a =>
    block layout.plot ⟨a.left, a.bottom⟩ ⟨a.right, a.top⟩ (.solid .bar)

/-! ## Legend -/

def legendWidth : Int := 188
def legendHeight : Int := 29

def legendInset : Int := 5

def legendCorner (plot : Area) : Point :=
  ⟨plot.right - legendWidth - legendInset, plot.top + legendInset⟩

/-- The row in the middle of the legend's only entry. -/
def legendMiddle (plot : Area) : Int :=
  plot.top + (2 * ((legendCorner plot).y - plot.top + 10) + 9) / 2

/-- A veil over the bars, a frame and a swatch of the bars' colour. -/
def legend (plot : Area) : List Stroke :=
  let p := legendCorner plot
  let q : Point := ⟨p.x + legendWidth, p.y + legendHeight⟩
  let m := legendMiddle plot
  [block plot p q .veil, line plot p ⟨p.x, q.y⟩ .black, line plot p ⟨q.x, p.y⟩ .black,
    line plot q ⟨p.x, q.y⟩ .black, line plot q ⟨q.x, p.y⟩ .black,
    block plot ⟨p.x + 10, m - 5⟩ ⟨p.x + 25, m + 5⟩ (.solid .bar)]

/-! ## The whole chart -/

def strokes (chart : BarChart) (width height : Nat) : List Stroke :=
  let layout := Layout.ofSize width height
  fill ⟨0, 0, width, height⟩ .white ::
    (chart.axes layout ++ chart.barStrokes layout ++ legend layout.plot)

end BarChart

end RehashChart
