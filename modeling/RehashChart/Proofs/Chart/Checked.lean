import RehashChart.Proofs.Chart.Buffer
import RehashChart.Proofs.Chart.TickRange
import RehashChart.Proofs.Settings.Canvas

/-! # Checked drawing

The drawing of a chart once more, with a check at every step: sums, differences and products of
pixels have to fit a signed word of thirty-two bits, and so do numbers that become pixels. No check
ever fails, so this is the same drawing.
-/

namespace RehashChart.Checked

open Binary64 BarChart

/-! ## Words -/

/-- An integer that fits a signed word. -/
def word (n : Int) : Option Int :=
  if -2147483648 ≤ n ∧ n ≤ 2147483647 then some n else none

def whole (x : Binary64) : Option Int := if x.isFinite then word (truncated x.toRat) else none

theorem word_eq {n : Int} (h : -2147483648 ≤ n ∧ n ≤ 2147483647) : word n = some n := if_pos h

theorem word_bind {α : Type} {n : Int} (h : -2147483648 ≤ n ∧ n ≤ 2147483647)
    (f : Int → Option α) : (word n >>= f) = f n := by
  rw [word_eq h]
  rfl

theorem some_bind {α β : Type} (a : α) (f : α → Option β) : (some a >>= f) = f a := rfl

theorem whole_eq {x : Binary64} {k : Int} (hx : x.HasValue k)
    (hk : -2147483648 ≤ k ∧ k ≤ 2147483647) : whole x = some x.toInt32 := by
  rw [whole, if_pos hx.finite, hx.value, truncated_intCast, word_eq hk,
    hx.toInt32_eq hk.1 hk.2]

/-! ## Positions -/

def pixelOf (v lo hi : Binary64) (a b : Int) : Option Int := do
  let share := (v - lo) / (hi - lo)
  let span ← word (b - a)
  let tolerance : Binary64 := .ofRat false (mkRat 1 1000)
  if span = 0 then
    return b
  else if 0 < span then
    let steps ← whole (Binary64.ofInt span * share + tolerance).floor
    word (a + steps)
  else
    let steps ← whole (Binary64.ofInt span * share - tolerance).ceil
    word (a + steps)

def column (chart : BarChart) (plot : Area) (x : Binary64) : Option Int := do
  let last ← word (plot.right - 1)
  pixelOf x (-oneHalf) (Binary64.ofNat chart.slots - oneHalf) plot.left last

def row (chart : BarChart) (plot : Area) (height : Nat) : Option Int := do
  let base ← word (plot.bottom - 1)
  pixelOf (Binary64.ofNat height) 0 (Binary64.ofNat chart.yMax) base plot.top

def barArea (chart : BarChart) (plot : Area) (bar : Bar) : Option Area := do
  let x := Binary64.ofNat bar.position
  let left ← column chart plot (x - halfBar)
  let top ← row chart plot bar.height.toNat
  let right ← column chart plot (x + halfBar)
  let bottom ← row chart plot 0
  return ⟨left, top, right, bottom⟩

def layout (width height : Int) : Option Layout := do
  let right ← word (width - margin)
  let label ← word (margin + yLabelWidth)
  let top ← word (margin + titleHeight)
  let bottom ← word (height - margin)
  let low ← word (bottom - xLabelHeight)
  return ⟨.of margin right label right, .of top bottom top low⟩

/-! ## Axes -/

def tickLength (plot : Area) : Option Int := do
  let width ← word (plot.right - plot.left)
  let height ← word (plot.bottom - plot.top)
  let shorter := min width.toNat height.toNat
  let length ← whole (Binary64.ofRat false (mkRat 5 100) * Binary64.ofNat shorter).round
  return min 5 length

def tickColumns (chart : BarChart) (plot : Area) : Option (List Int) := do
  let last ← word (plot.right - 1)
  let columns ← chart.xKeyPoints.mapM (column chart plot)
  return columns.filter (isBetween plot.left last)

def tickRows (chart : BarChart) (plot : Area) : Option (List Int) := do
  let base ← word (plot.bottom - 1)
  let rows ← chart.yKeyPoints.mapM (row chart plot)
  return rows.filter (isBetween base plot.top)

def horizontal (y a b : Int) (colour : Colour) : Option Stroke := do
  let past ← word (b + 1)
  let below ← word (y + 1)
  return fill ⟨min a past, y, max a past, below⟩ colour

def vertical (x a b : Int) (colour : Colour) : Option Stroke := do
  let beside ← word (x + 1)
  let past ← word (max a b + 1)
  return fill ⟨x, min a b, beside, past⟩ colour

def line (bounds : Area) (p q : Point) (colour : Colour) : Option Stroke :=
  let p := bounds.clamp p
  let q := bounds.clamp q
  if p.y = q.y then horizontal p.y p.x q.x colour else vertical p.x p.y q.y colour

def horizontalAxis (labels plot : Area) (columns : List Int) (edge tip : Int) :
    Option (List Stroke) := do
  let width ← word labels.width
  let height ← word labels.height
  if width = 0 ∨ height = 0 then
    return []
  else
    let last ← word (plot.right - 1)
    let length ← word (last - plot.left)
    let far ← word (labels.left + length)
    let axis ← line labels ⟨labels.left, edge⟩ ⟨far, edge⟩ .black
    let ticks ← columns.mapM fun x => line labels ⟨x, min edge tip⟩ ⟨x, max edge tip⟩ .black
    return axis :: ticks

def verticalAxis (labels plot : Area) (rows : List Int) (edge tip : Int) :
    Option (List Stroke) := do
  let width ← word labels.width
  let height ← word labels.height
  if width = 0 ∨ height = 0 then
    return []
  else
    let base ← word (plot.bottom - 1)
    let length ← word (base - plot.top)
    let far ← word (labels.top + length)
    let axis ← line labels ⟨edge, far⟩ ⟨edge, labels.top⟩ .black
    let ticks ← rows.mapM fun y => line labels ⟨min edge tip, y⟩ ⟨max edge tip, y⟩ .black
    return axis :: ticks

def axes (chart : BarChart) (layout : Layout) : Option (List Stroke) := do
  let plot := layout.plot
  let tick ← tickLength plot
  let columns ← tickColumns chart plot
  let rows ← tickRows chart plot
  let lowest ← word (layout.above.bottom - 1)
  let up ← word (lowest - tick)
  let down ← word (layout.below.top + tick)
  let rightmost ← word (layout.leftOf.right - 1)
  let left ← word (rightmost - tick)
  let right ← word (layout.rightOf.left + tick)
  let above ← horizontalAxis layout.above plot columns lowest up
  let below ← horizontalAxis layout.below plot columns layout.below.top down
  let leftOf ← verticalAxis layout.leftOf plot rows rightmost left
  let rightOf ← verticalAxis layout.rightOf plot rows layout.rightOf.left right
  return above ++ below ++ leftOf ++ rightOf

/-! ## Legend -/

def legend (plot : Area) : Option (List Stroke) := do
  let inner ← word (plot.right - legendWidth)
  let x ← word (inner - legendInset)
  let y ← word (plot.top + legendInset)
  let right ← word (x + legendWidth)
  let bottom ← word (y + legendHeight)
  let offset ← word (y - plot.top)
  let text ← word (offset + 10)
  let double ← word (2 * text)
  let sum ← word (double + 9)
  let middle ← word (plot.top + sum / 2)
  let swatchLeft ← word (x + 10)
  let swatchRight ← word (x + 25)
  let swatchTop ← word (middle - 5)
  let swatchBottom ← word (middle + 5)
  let upper ← line plot ⟨x, y⟩ ⟨right, y⟩ .black
  let left ← line plot ⟨x, y⟩ ⟨x, bottom⟩ .black
  let lower ← line plot ⟨right, bottom⟩ ⟨x, bottom⟩ .black
  let far ← line plot ⟨right, bottom⟩ ⟨right, y⟩ .black
  return [block plot ⟨x, y⟩ ⟨right, bottom⟩ .veil, left, upper, lower, far,
    block plot ⟨swatchLeft, swatchTop⟩ ⟨swatchRight, swatchBottom⟩ (.solid .bar)]

/-! ## The whole chart -/

/-- Draws the chart, if no check fails. -/
def render (chart : BarChart) (width height : UInt32) :
    Option (Except RenderError RenderedChart) :=
  if isCanvas width height then do
    let w := width.toNat
    let h := height.toNat
    let layout ← layout w h
    let areas ← chart.bars.mapM (barArea chart layout.plot)
    let axes ← axes chart layout
    let legend ← legend layout.plot
    let bars := areas.map fun a =>
      block layout.plot ⟨a.left, a.bottom⟩ ⟨a.right, a.top⟩ (.solid .bar)
    let pixels ← Buffer.paint (fill ⟨0, 0, w, h⟩ .white :: (axes ++ bars ++ legend)) w h
    return .ok ⟨width, height, pixels, areas⟩
  else return .error ⟨width.toNat, height.toNat⟩

/-! ## No check of a position fails -/

theorem mapM_eq_some {α β : Type} {f : α → Option β} {g : α → β} {list : List α}
    (h : ∀ a ∈ list, f a = some (g a)) : list.mapM f = some (list.map g) := by
  induction list with
  | nil => rfl
  | cons a list ih =>
      rw [List.mapM_cons, h a List.mem_cons_self, ih fun b hb => h b (List.mem_cons_of_mem a hb)]
      rfl

theorem layout_eq {width height : Int} (hwidth : 1 ≤ width ∧ width ≤ 16384)
    (hheight : 1 ≤ height ∧ height ≤ 16384) :
    layout width height = some (Layout.ofSize width height) := by
  unfold layout Layout.ofSize margin yLabelWidth titleHeight xLabelHeight
  rw [word_bind (by omega), word_bind (by omega), word_bind (by omega), word_bind (by omega),
    word_bind (by omega)]
  rfl

section Positions

variable {v lo hi : Binary64} {a b : Int} {s : Rat}

/-- A position is found without a failing check unless it is very far away. -/
theorem pixelOf_eq (ha : -60 ≤ a ∧ a ≤ 16384) (hb : -60 ≤ b ∧ b ≤ 16384)
    (hs : (shareOf v lo hi).HasValue s) (hsize : |s| ≤ 2 ^ 15) :
    pixelOf v lo hi a b = some (RehashChart.pixelOf v lo hi a b) := by
  obtain ⟨up, down, ⟨hup, hupsize⟩, hdown, hdownsize⟩ :=
    exists_steps (by omega : (b - a).natAbs ≤ 2 ^ 15) hs hsize
  rw [abs_le] at hupsize hdownsize
  have hupWhole := whole_eq hup (by omega)
  have hdownWhole := whole_eq hdown (by omega)
  have hupSteps := hup.toInt32_eq (by omega) (by omega)
  have hdownSteps := hdown.toInt32_eq (by omega) (by omega)
  unfold shareOf at hupWhole hdownWhole hupSteps hdownSteps
  unfold pixelOf RehashChart.pixelOf
  dsimp only
  rw [word_bind (by omega)]
  split
  · rfl
  · split
    · rw [hupWhole, some_bind, hupSteps, word_eq (by omega)]
    · rw [hdownWhole, some_bind, hdownSteps, word_eq (by omega)]

/-- A check does fail where a place is a billion times as far away as the axis is long. -/
example : pixelOf (ofNat (10 ^ 9)) 0 1 0 100 = none := by decide +kernel

variable {chart : BarChart} {plot : Area}

theorem column_eq (hplot : plot.Near 59) {x : Binary64}
    (hs : (shareOf x (-oneHalf) (ofNat chart.slots - oneHalf)).HasValue s) (hsize : |s| ≤ 2 ^ 15) :
    column chart plot x = some (chart.column plot x) := by
  obtain ⟨hleft, _, hright, _⟩ := hplot
  unfold column
  rw [word_bind (by omega)]
  exact pixelOf_eq (by omega) (by omega) hs hsize

theorem row_eq (hplot : plot.Near 59) {height : Nat} (h : height ≤ chart.yMax) :
    row chart plot height = some (chart.row plot height) := by
  obtain ⟨_, htop, _, hbottom⟩ := hplot
  obtain ⟨hpos, hmax⟩ := chart.yMax_bounds
  obtain ⟨s, _, hs, _, h₀, h₁, h₂, _⟩ := exists_heightShares (le_refl height) h hpos hmax
  unfold row
  rw [word_bind (by omega)]
  refine pixelOf_eq (by omega) (by omega) hs ?_
  rw [abs_of_nonneg h₀]
  linarith

/-- As long as the number of bars is finite, the sides of a bar are parts of the way. -/
theorem sides_eq (hplot : plot.Near 59) {i : Nat} (hi : i < chart.slots)
    (hslots : chart.slots < 2 ^ 63) :
    column chart plot (ofNat i - halfBar) = some (chart.column plot (ofNat i - halfBar)) ∧
      column chart plot (ofNat i + halfBar) = some (chart.column plot (ofNat i + halfBar)) := by
  rcases bar_inOrder hi with ⟨s₁, s₂, hs₁, hs₂, h₀, h₁, h₂⟩ | hinfinite
  · refine ⟨column_eq hplot hs₁ ?_, column_eq hplot hs₂ ?_⟩
    · rw [abs_of_nonneg h₀]
      linarith
    · rw [abs_of_nonneg (h₀.trans h₁)]
      linarith
  · obtain ⟨r, hr, _⟩ := exists_ofNat (by omega : chart.slots < 2 ^ 64)
    rw [hinfinite] at hr
    exact absurd hr.finite Bool.false_ne_true

theorem barArea_eq (hplot : plot.Near 59) (hslots : chart.slots < 2 ^ 63) {bar : Bar}
    (hbar : bar ∈ chart.bars) (hposition : bar.position < chart.slots) :
    barArea chart plot bar = some (chart.barArea plot bar) := by
  obtain ⟨hleft, hright⟩ := sides_eq hplot hposition hslots
  unfold barArea BarChart.barArea
  dsimp only
  rw [hleft, some_bind, row_eq hplot (height_le_yMax hbar), some_bind, hright, some_bind,
    row_eq hplot (Nat.zero_le _)]
  rfl

end Positions

/-! ## No check of the axes fails -/

section Axes

variable {chart : BarChart} {plot labels : Area}

theorem tickLength_eq (hplot : plot.Near 59) :
    tickLength plot = some (BarChart.tickLength plot) := by
  obtain ⟨hleft, htop, hright, hbottom⟩ := hplot
  obtain ⟨k, hk, hlow, hhigh⟩ :=
    exists_twentieth (by simp only [Area.width, Area.height]; omega :
      min plot.width.toNat plot.height.toNat ≤ 2 ^ 20)
  have hlength := whole_eq hk (by omega)
  unfold Area.width Area.height at hlength
  unfold tickLength BarChart.tickLength Area.width Area.height
  rw [word_bind (by omega), word_bind (by omega)]
  dsimp only
  rw [hlength]
  rfl

theorem tickColumns_eq (hplot : plot.Near 59) (hbars : chart.bars.length < 2 ^ 63) :
    tickColumns chart plot = some (chart.tickColumns plot) := by
  have hcolumns : chart.xKeyPoints.mapM (column chart plot) =
      some (chart.xKeyPoints.map (chart.column plot)) := by
    refine mapM_eq_some fun v hv => ?_
    obtain ⟨s, hs, hsize⟩ := exists_tickShare hbars hv
    exact column_eq hplot hs hsize
  obtain ⟨_, _, hright, _⟩ := hplot
  unfold tickColumns
  rw [word_bind (by omega), hcolumns]
  rfl

theorem tickRows_eq (hplot : plot.Near 59) :
    tickRows chart plot = some (chart.tickRows plot) := by
  have hrows : chart.yKeyPoints.mapM (row chart plot) =
      some (chart.yKeyPoints.map (chart.row plot)) :=
    mapM_eq_some fun height hheight => row_eq hplot (le_yMax_of_mem_yKeyPoints hheight)
  obtain ⟨_, _, _, hbottom⟩ := hplot
  unfold tickRows
  rw [word_bind (by omega), hrows]
  rfl

theorem line_eq (hlabels : labels.Near 59) (p q : Point) (colour : Colour) :
    line labels p q colour = some (RehashChart.line labels p q colour) := by
  obtain ⟨hleft, htop, hright, hbottom⟩ := hlabels
  unfold line RehashChart.line
  dsimp only
  split
  · unfold horizontal RehashChart.horizontal Area.clamp
    rw [word_bind (by dsimp only; omega), word_bind (by dsimp only; omega)]
    rfl
  · unfold vertical RehashChart.vertical Area.clamp
    rw [word_bind (by dsimp only; omega), word_bind (by dsimp only; omega)]
    rfl

theorem horizontalAxis_eq (hlabels : labels.Near 59) (hplot : plot.Near 59) (columns : List Int)
    (edge tip : Int) :
    horizontalAxis labels plot columns edge tip =
      some (BarChart.horizontalAxis labels plot columns edge tip) := by
  have hline := line_eq hlabels
  obtain ⟨hleft, htop, hright, hbottom⟩ := hlabels
  obtain ⟨hleft', htop', hright', hbottom'⟩ := hplot
  unfold horizontalAxis BarChart.horizontalAxis
  rw [word_bind (by unfold Area.width; omega), word_bind (by unfold Area.height; omega)]
  split
  · rfl
  · rw [word_bind (by omega), word_bind (by omega), word_bind (by omega), hline, some_bind,
      mapM_eq_some fun x _ => hline _ _ _]
    rfl

theorem verticalAxis_eq (hlabels : labels.Near 59) (hplot : plot.Near 59) (rows : List Int)
    (edge tip : Int) :
    verticalAxis labels plot rows edge tip =
      some (BarChart.verticalAxis labels plot rows edge tip) := by
  have hline := line_eq hlabels
  obtain ⟨hleft, htop, hright, hbottom⟩ := hlabels
  obtain ⟨hleft', htop', hright', hbottom'⟩ := hplot
  unfold verticalAxis BarChart.verticalAxis
  rw [word_bind (by unfold Area.width; omega), word_bind (by unfold Area.height; omega)]
  split
  · rfl
  · rw [word_bind (by omega), word_bind (by omega), word_bind (by omega), hline, some_bind,
      mapM_eq_some fun y _ => hline _ _ _]
    rfl

theorem axes_eq {layout : Layout} (h : layout.Near) (hbars : chart.bars.length < 2 ^ 63) :
    axes chart layout = some (chart.axes layout) := by
  obtain ⟨hplot, habove, hbelow, hleftOf, hrightOf⟩ := h.areas
  have htick : 0 ≤ BarChart.tickLength layout.plot ∧ BarChart.tickLength layout.plot ≤ 5 := by
    refine tickLength_bounds _ ?_
    obtain ⟨hleft, _, hright, _⟩ := hplot
    unfold Area.width
    omega
  have habove' := habove.bottom
  have hbelow' := hbelow.top
  have hleftOf' := hleftOf.right
  have hrightOf' := hrightOf.left
  unfold axes BarChart.axes
  dsimp only
  rw [tickLength_eq hplot, some_bind, tickColumns_eq hplot hbars, some_bind, tickRows_eq hplot,
    some_bind, word_bind (by omega), word_bind (by omega), word_bind (by omega),
    word_bind (by omega), word_bind (by omega), word_bind (by omega),
    horizontalAxis_eq habove hplot, some_bind, horizontalAxis_eq hbelow hplot, some_bind,
    verticalAxis_eq hleftOf hplot, some_bind, verticalAxis_eq hrightOf hplot, some_bind]
  rfl

end Axes

/-! ## No check of the legend fails -/

theorem legend_eq {plot : Area} (hplot : plot.Near 59) :
    legend plot = some (BarChart.legend plot) := by
  have hline := line_eq hplot
  obtain ⟨hleft, htop, hright, hbottom⟩ := hplot
  unfold legend BarChart.legend legendMiddle legendCorner legendWidth legendHeight legendInset
  simp (disch := omega) only [↓word_bind, ↓hline, ↓some_bind, Option.pure_def]

/-! ## The whole chart -/

theorem render_eq {samples : List Sample} (hbars : samples.length < 2 ^ 63)
    (width height : UInt32) :
    render (ofSamples samples) width height = some ((ofSamples samples).render width height) := by
  unfold render BarChart.render
  by_cases hcanvas : isCanvas width height = true
  · obtain ⟨hwidth, hheight⟩ := Settings.isCanvas_iff.mp hcanvas
    unfold maxCanvasSide at hwidth hheight
    have hlayout : layout width.toNat height.toNat = some (.ofSize width.toNat height.toNat) :=
      layout_eq (by omega) (by omega)
    have hnear : (Layout.ofSize width.toNat height.toNat).Near :=
      Layout.near_ofSize (by omega) (by omega)
    have hbars' : (ofSamples samples).bars.length < 2 ^ 63 := by rwa [length_ofSamples]
    have hslots := slots_lt hbars'
    have hplot := hnear.areas.1
    have hareas := mapM_eq_some fun bar (hbar : bar ∈ (ofSamples samples).bars) =>
      barArea_eq hplot hslots hbar (position_lt_slots hbar)
    rw [if_pos hcanvas, if_pos hcanvas]
    dsimp only
    rw [hlayout, some_bind, hareas, some_bind, axes_eq hnear hbars', some_bind, legend_eq hplot,
      some_bind, Buffer.paint_eq _ hwidth.1]
    rfl
  · rw [if_neg hcanvas, if_neg hcanvas]
    rfl

end RehashChart.Checked
