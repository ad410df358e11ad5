import RehashChart.Proofs.Chart.Columns
import RehashChart.Proofs.Chart.Raster
import RehashChart.Proofs.Chart.Rows
import RehashChart.Proofs.Chart.Strokes

/-! # The picture of a chart

On a canvas that is not too small the plot has the bars and nothing else but the legend, the axes
and their ticks stay in two strips beside it, and the rest is white.
-/

namespace RehashChart

open Binary64

/-! ## The parts of the canvas -/

/-- Where the label areas leave room for a plot, it begins after them and ends before the margin. -/
theorem Layout.ofSize_eq {width height : Int} (hwidth : 91 ≤ width) (hheight : 102 ≤ height) :
    Layout.ofSize width height =
      ⟨⟨15, 75, width - 15, width - 15⟩, ⟨41, 41, height - 60, height - 15⟩⟩ := by
  simp only [Layout.ofSize, Cuts.of, margin, titleHeight, xLabelHeight, yLabelWidth,
    Layout.mk.injEq, Cuts.mk.injEq]
  omega

theorem Layout.plot_ofSize {width height : Int} (hwidth : 91 ≤ width) (hheight : 102 ≤ height) :
    (Layout.ofSize width height).plot = ⟨75, 41, width - 15, height - 60⟩ := by
  rw [Layout.ofSize_eq hwidth hheight]
  rfl

/-- The strips of the axes and their ticks, left of the plot and below it. -/
def OnAxes (width height x y : Int) : Prop :=
  (69 ≤ x ∧ x ≤ 74 ∧ 41 ≤ y ∧ y ≤ height - 61) ∨
    (height - 60 ≤ y ∧ y ≤ height - 55 ∧ 75 ≤ x ∧ x ≤ width - 16)

instance (width height x y : Int) : Decidable (OnAxes width height x y) :=
  inferInstanceAs (Decidable (_ ∨ _))

/-- The rectangle of the legend, as far as it is in the plot; its edges belong to it. -/
def InLegend (width height x y : Int) : Prop :=
  (max 75 (min (width - 15) (width - 208)) ≤ x ∧ x ≤ max 75 (min (width - 15) (width - 20))) ∧
    max 41 (min (height - 60) 46) ≤ y ∧ y ≤ max 41 (min (height - 60) 75)

instance (width height x y : Int) : Decidable (InLegend width height x y) :=
  inferInstanceAs (Decidable (_ ∧ _))

namespace BarChart

/-! ## Bars -/

theorem barArea_within {chart : BarChart} {plot : Area} {bar : Bar} (hbar : bar ∈ chart.bars)
    (hposition : bar.position < chart.slots) (hacross : plot.left < plot.right)
    (hdown : plot.top < plot.bottom) (hwidth : plot.width ≤ 2 ^ 20)
    (hheight : plot.height ≤ 2 ^ 20) : (chart.barArea plot bar).Within plot := by
  unfold Area.width at hwidth
  unfold Area.height at hheight
  obtain ⟨hleft, hsides, hright⟩ :=
    column_bounds chart plot (by omega) (by omega) hposition
  obtain ⟨htop, hbottom, _⟩ := row_bounds chart plot (by omega) (by omega) (height_le_yMax hbar)
  obtain ⟨_, _, hbase⟩ := row_bounds chart plot (by omega) (by omega) (Nat.zero_le chart.yMax)
  have hrow := hbase rfl
  exact
    { left := hleft
      across := hsides
      right := by
        change chart.column plot (ofNat bar.position + halfBar) ≤ plot.right
        omega
      top := htop
      down := by
        change chart.row plot bar.height.toNat ≤ chart.row plot 0
        omega
      bottom := by
        change chart.row plot 0 ≤ plot.bottom
        omega }

/-! ## Axes -/

theorem exists_twentieth {n : Nat} (hn : n ≤ 2 ^ 20) :
    ∃ k : Int, (Binary64.ofRat false (mkRat 5 100) * Binary64.ofNat n).round.HasValue k ∧
      0 ≤ k ∧ k < 2 ^ 21 := by
  obtain ⟨t, ht, htlow, hthigh⟩ := ofRat_mkRat_between false (n := 5) (d := 100)
    representable_zero (representable_two_pow (k := 0) (by decide)) (by norm_num) (by norm_num)
  have hnr : (n : Rat) ≤ 2 ^ 20 := by exact_mod_cast hn
  have hvalue : (ofNat n).HasValue n := ofNat_hasValue (by simp only [significands]; omega)
  rw [pow_zero] at hthigh
  obtain ⟨p, hp, hlow, hhigh⟩ := ht.mul_between hvalue representable_zero
    (representable_two_pow (k := 20) (by decide)) (by positivity) (by nlinarith)
  have hnear := roundAway_near p
  rw [abs_le] at hnear
  have hround : (-1 : Rat) < roundAway p ∧ (roundAway p : Rat) < 2 ^ 21 := by
    constructor <;> linarith
  have hround' : -1 < roundAway p ∧ roundAway p < 2 ^ 21 := by exact_mod_cast hround
  exact ⟨roundAway p, hp.round, by omega, hround'.2⟩

theorem tickLength_bounds (plot : Area) (hwidth : plot.width ≤ 2 ^ 20) :
    0 ≤ tickLength plot ∧ tickLength plot ≤ 5 := by
  unfold tickLength
  dsimp only
  obtain ⟨k, hk, hlow, hhigh⟩ :=
    exists_twentieth (by omega : min plot.width.toNat plot.height.toNat ≤ 2 ^ 20)
  rw [hk.toInt32_eq (by omega) (by omega)]
  omega

variable {labels plot : Area} {edge tip : Int} {s : Stroke} {x y : Int}

theorem mem_horizontalAxis {columns : List Int}
    (hs : s ∈ horizontalAxis labels plot columns edge tip) :
    s = line labels ⟨labels.left, edge⟩ ⟨labels.left + (plot.right - 1 - plot.left), edge⟩ .black ∨
      ∃ c ∈ columns, s = line labels ⟨c, min edge tip⟩ ⟨c, max edge tip⟩ .black := by
  unfold horizontalAxis at hs
  split at hs
  · exact absurd hs List.not_mem_nil
  · rcases List.mem_cons.mp hs with hs | hs
    · exact .inl hs
    · obtain ⟨c, hc, hs⟩ := List.mem_map.mp hs
      exact .inr ⟨c, hc, hs.symm⟩

theorem mem_verticalAxis {rows : List Int} (hs : s ∈ verticalAxis labels plot rows edge tip) :
    s = line labels ⟨edge, labels.top + (plot.bottom - 1 - plot.top)⟩ ⟨edge, labels.top⟩ .black ∨
      ∃ r ∈ rows, s = line labels ⟨min edge tip, r⟩ ⟨max edge tip, r⟩ .black := by
  unfold verticalAxis at hs
  split at hs
  · exact absurd hs List.not_mem_nil
  · rcases List.mem_cons.mp hs with hs | hs
    · exact .inl hs
    · obtain ⟨r, hr, hs⟩ := List.mem_map.mp hs
      exact .inr ⟨r, hr, hs.symm⟩

theorem contains_horizontalAxis {columns : List Int}
    (hs : s ∈ horizontalAxis labels plot columns edge tip) (hin : s.area.Contains x y)
    (hcolumns : ∀ c ∈ columns, plot.left ≤ c ∧ c ≤ plot.right - 1) (hleft : labels.left = plot.left)
    (hright : labels.right = plot.right) (hplot : plot.left < plot.right)
    (htop : labels.top ≤ min edge tip) (hbottom : max edge tip ≤ labels.bottom) :
    plot.left ≤ x ∧ x ≤ plot.right - 1 ∧ min edge tip ≤ y ∧ y ≤ max edge tip := by
  rcases mem_horizontalAxis hs with rfl | ⟨c, hc, rfl⟩
  · have h := contains_line hin
    simp only [Area.clamp] at h
    omega
  · have hcolumn := hcolumns c hc
    have h := contains_line hin
    simp only [Area.clamp] at h
    omega

theorem contains_verticalAxis {rows : List Int}
    (hs : s ∈ verticalAxis labels plot rows edge tip) (hin : s.area.Contains x y)
    (hrows : ∀ r ∈ rows, plot.top ≤ r ∧ r ≤ plot.bottom - 1) (htop : labels.top = plot.top)
    (hbottom : labels.bottom = plot.bottom) (hplot : plot.top < plot.bottom)
    (hleft : labels.left ≤ min edge tip) (hright : max edge tip ≤ labels.right) :
    min edge tip ≤ x ∧ x ≤ max edge tip ∧ plot.top ≤ y ∧ y ≤ plot.bottom - 1 := by
  rcases mem_verticalAxis hs with rfl | ⟨r, hr, rfl⟩
  · have h := contains_line hin
    simp only [Area.clamp] at h
    omega
  · have hrow := hrows r hr
    have h := contains_line hin
    simp only [Area.clamp] at h
    omega

theorem tickColumns_in (chart : BarChart) (plot : Area) (hplot : plot.left < plot.right) :
    ∀ c ∈ chart.tickColumns plot, plot.left ≤ c ∧ c ≤ plot.right - 1 := by
  intro c hc
  have h := (List.mem_filter.mp hc).2
  simp only [isBetween, Bool.and_eq_true, decide_eq_true_eq] at h
  omega

theorem tickRows_in (chart : BarChart) (plot : Area) (hplot : plot.top < plot.bottom) :
    ∀ r ∈ chart.tickRows plot, plot.top ≤ r ∧ r ≤ plot.bottom - 1 := by
  intro r hr
  have h := (List.mem_filter.mp hr).2
  simp only [isBetween, Bool.and_eq_true, decide_eq_true_eq] at h
  omega

theorem axes_ink {chart : BarChart} {layout : Layout} (hs : s ∈ chart.axes layout) :
    s.ink = .solid .black := by
  have hhorizontal : ∀ {labels columns edge tip},
      s ∈ horizontalAxis labels layout.plot columns edge tip → s.ink = .solid .black := by
    intro labels columns edge tip hs
    rcases mem_horizontalAxis hs with rfl | ⟨c, _, rfl⟩
    · exact line_ink _ _ _ _
    · exact line_ink _ _ _ _
  have hvertical : ∀ {labels rows edge tip},
      s ∈ verticalAxis labels layout.plot rows edge tip → s.ink = .solid .black := by
    intro labels rows edge tip hs
    rcases mem_verticalAxis hs with rfl | ⟨r, _, rfl⟩
    · exact line_ink _ _ _ _
    · exact line_ink _ _ _ _
  simp only [axes, List.mem_append] at hs
  rcases hs with ((hs | hs) | hs) | hs
  · exact hhorizontal hs
  · exact hhorizontal hs
  · exact hvertical hs
  · exact hvertical hs

theorem contains_axes {chart : BarChart} {width height : Int} (hwidth : 91 ≤ width)
    (hheight : 102 ≤ height) (hwidth' : width ≤ 16384)
    (hs : s ∈ chart.axes (.ofSize width height)) (hin : s.area.Contains x y) :
    OnAxes width height x y := by
  rw [Layout.ofSize_eq hwidth hheight] at hs
  have hplot : Layout.plot ⟨⟨15, 75, width - 15, width - 15⟩, ⟨41, 41, height - 60, height - 15⟩⟩ =
      ⟨75, 41, width - 15, height - 60⟩ := rfl
  simp only [axes, List.mem_append, hplot] at hs
  have htick := tickLength_bounds ⟨75, 41, width - 15, height - 60⟩
    (by simp only [Area.width]; omega)
  generalize tickLength ⟨75, 41, width - 15, height - 60⟩ = tick at hs htick
  have hcolumns := tickColumns_in chart ⟨75, 41, width - 15, height - 60⟩ (by simp only; omega)
  have hrows := tickRows_in chart ⟨75, 41, width - 15, height - 60⟩ (by simp only; omega)
  simp only [Layout.above, Layout.below, Layout.leftOf, Layout.rightOf] at hs
  rcases hs with ((hs | hs) | hs) | hs
  · -- the label area above the plot has no rows
    simp [horizontalAxis, Area.height] at hs
  · have h := contains_horizontalAxis hs hin hcolumns rfl rfl (by simp only; omega)
      (by simp only; omega) (by simp only; omega)
    simp only at h
    exact .inr (by omega)
  · have h := contains_verticalAxis hs hin hrows rfl rfl (by simp only; omega)
      (by simp only; omega) (by simp only; omega)
    simp only at h
    exact .inl (by omega)
  · simp [verticalAxis, Area.width] at hs

/-! ## Legend -/

theorem contains_legend {width height : Int} (hwidth : 91 ≤ width) (hheight : 102 ≤ height)
    (hs : s ∈ legend ⟨75, 41, width - 15, height - 60⟩) (hin : s.area.Contains x y) :
    InLegend width height x y := by
  simp only [legend, legendCorner, legendMiddle, legendWidth, legendHeight, legendInset,
    List.mem_cons, List.not_mem_nil, or_false] at hs
  unfold InLegend
  rcases hs with rfl | rfl | rfl | rfl | rfl | rfl
  · have h := contains_block hin
    simp only [Area.clamp] at h
    omega
  · have h := contains_line hin
    simp only [Area.clamp] at h
    omega
  · have h := contains_line hin
    simp only [Area.clamp] at h
    omega
  · have h := contains_line hin
    simp only [Area.clamp] at h
    omega
  · have h := contains_line hin
    simp only [Area.clamp] at h
    omega
  · have h := contains_block hin
    simp only [Area.clamp] at h
    omega

/-! ## The whole picture -/

theorem barStroke_area {samples : List Sample} {width height : Int} (hwidth : 91 ≤ width)
    (hwidth' : width ≤ 16384) (hheight : 102 ≤ height) (hheight' : height ≤ 16384) {a : Area}
    (ha : a ∈ (ofSamples samples).barAreas (.ofSize width height)) :
    (block (Layout.ofSize width height).plot ⟨a.left, a.bottom⟩ ⟨a.right, a.top⟩
      (.solid .bar)).area = a := by
  obtain ⟨bar, hbar, rfl⟩ := List.mem_map.mp ha
  rw [Layout.plot_ofSize hwidth hheight]
  refine block_area (barArea_within hbar (position_lt_slots hbar) ?_ ?_ ?_ ?_) _
  · simp only; omega
  · simp only; omega
  · simp only [Area.width]; omega
  · simp only [Area.height]; omega

theorem contains_barStrokes (samples : List Sample) (width height : Int) (hwidth : 91 ≤ width)
    (hwidth' : width ≤ 16384) (hheight : 102 ≤ height) (hheight' : height ≤ 16384) :
    (∃ s ∈ (ofSamples samples).barStrokes (.ofSize width height), s.area.Contains x y) ↔
      ∃ a ∈ (ofSamples samples).barAreas (.ofSize width height), a.Contains x y := by
  unfold barStrokes
  constructor
  · rintro ⟨s, hs, hin⟩
    obtain ⟨a, ha, rfl⟩ := List.mem_map.mp hs
    exact ⟨a, ha, barStroke_area hwidth hwidth' hheight hheight' ha ▸ hin⟩
  · rintro ⟨a, ha, hin⟩
    exact ⟨_, List.mem_map.mpr ⟨a, ha, rfl⟩,
      (barStroke_area hwidth hwidth' hheight hheight' ha).symm ▸ hin⟩

theorem barStrokes_ink {chart : BarChart} {layout : Layout} (hs : s ∈ chart.barStrokes layout) :
    s.ink = .solid .bar := by
  obtain ⟨a, _, rfl⟩ := List.mem_map.mp hs
  rfl

/-- The legend is drawn over what the last of the bars, the axes and the ground that cover a pixel
makes of it. -/
theorem colourAt_strokes {samples : List Sample} {width height x y : Nat} (hwidth : 91 ≤ width)
    (hwidth' : width ≤ 16384) (hheight : 102 ≤ height) (hheight' : height ≤ 16384) (hx : x < width)
    (hy : y < height) :
    colourAt ((ofSamples samples).strokes width height) width height x y =
      (legend (Layout.ofSize width height).plot).foldl
        (fun ground s => s.apply width height x y ground)
        (if ∃ a ∈ (ofSamples samples).barAreas (.ofSize width height), a.Contains x y then .bar
        else if ∃ s ∈ (ofSamples samples).axes (.ofSize width height), s.area.Contains x y then
          .black
        else .white) := by
  have hground :
      (fill ⟨0, 0, width, height⟩ .white).apply width height x y .black = .white := by
    rw [Stroke.apply_solid hx hy rfl]
    refine if_pos ?_
    simp only [fill, Area.Contains]
    omega
  unfold colourAt strokes
  dsimp only
  rw [List.foldl_cons, List.foldl_append, List.foldl_append, hground,
    foldl_apply_solid hx hy fun s hs => barStrokes_ink hs,
    foldl_apply_solid hx hy fun s hs => axes_ink hs]
  simp only [contains_barStrokes samples width height (by omega) (by omega) (by omega) (by omega)]

theorem colourAt_strokes_of_not_inLegend {samples : List Sample} {width height x y : Nat}
    (hwidth : 91 ≤ width) (hwidth' : width ≤ 16384) (hheight : 102 ≤ height)
    (hheight' : height ≤ 16384) (hx : x < width) (hy : y < height)
    (hlegend : ¬InLegend width height x y) :
    colourAt ((ofSamples samples).strokes width height) width height x y =
      if ∃ a ∈ (ofSamples samples).barAreas (.ofSize width height), a.Contains x y then .bar
      else if ∃ s ∈ (ofSamples samples).axes (.ofSize width height), s.area.Contains x y then .black
      else .white := by
  rw [colourAt_strokes hwidth hwidth' hheight hheight' hx hy]
  refine foldl_apply_of_not_contains hx hy (fun s hs hin => ?_) _
  rw [Layout.plot_ofSize (by omega) (by omega)] at hs
  exact hlegend (contains_legend (by omega) (by omega) hs hin)

theorem isCanvas_of_bounds {width height : UInt32}
    (hwidth : 91 ≤ width.toNat ∧ width.toNat ≤ 16384)
    (hheight : 102 ≤ height.toNat ∧ height.toNat ≤ 16384) : isCanvas width height = true := by
  have hwidth0 : width ≠ 0 := by
    rintro rfl
    exact absurd hwidth.1 (by decide)
  have hheight0 : height ≠ 0 := by
    rintro rfl
    exact absurd hheight.1 (by decide)
  simp [isCanvas, maxCanvasSide, hwidth0, hheight0, hwidth.2, hheight.2]

/-- The picture of a chart shows its bars and nothing else. Outside the legend a pixel has the
colour of the bars if it is in the area of a bar and only then, it is black beside the plot only,
where the axes and ticks are, and all other pixels are white. -/
theorem picture_shows_bars (samples : List Sample) (width height : UInt32)
    (hwidth : 91 ≤ width.toNat ∧ width.toNat ≤ 16384)
    (hheight : 102 ≤ height.toNat ∧ height.toNat ≤ 16384) :
    (Layout.ofSize width.toNat height.toNat).plot =
        ⟨75, 41, width.toNat - 15, height.toNat - 60⟩ ∧
      ∃ rendered, (ofSamples samples).render width height = .ok rendered ∧
        rendered.pixels.size = 3 * width.toNat * height.toNat ∧
        ∀ x y : UInt32, x < width → y < height →
          ¬InLegend width.toNat height.toNat x.toNat y.toNat →
          (rendered.pixel x y = .colour .bar ↔
            ∃ a ∈ rendered.barAreas, a.Contains x.toNat y.toNat) ∧
          (rendered.pixel x y = .colour .black →
            OnAxes width.toNat height.toNat x.toNat y.toNat) ∧
          (rendered.pixel x y = .colour .bar ∨ rendered.pixel x y = .colour .black ∨
            rendered.pixel x y = .colour .white) := by
  have hrender : (ofSamples samples).render width height = .ok _ :=
    render_eq_ok_iff.mpr ⟨isCanvas_of_bounds hwidth hheight, rfl⟩
  refine ⟨Layout.plot_ofSize (by omega) (by omega), _, hrender, Raster.size_paint _ _ _, ?_⟩
  intro x y hx hy hlegend
  rw [pixel_of_render hrender hx hy,
    colourAt_strokes_of_not_inLegend hwidth.1 hwidth.2 hheight.1 hheight.2
    (UInt32.lt_iff_toNat_lt.mp hx) (UInt32.lt_iff_toNat_lt.mp hy) hlegend]
  simp only [RenderedChart.Sight.colour.injEq]
  by_cases hbar : ∃ a ∈ (ofSamples samples).barAreas (.ofSize width.toNat height.toNat),
      a.Contains x.toNat y.toNat
  · rw [if_pos hbar]
    exact ⟨iff_of_true rfl hbar, fun h => absurd h (by decide), .inl rfl⟩
  · rw [if_neg hbar]
    by_cases haxes : ∃ s ∈ (ofSamples samples).axes (.ofSize width.toNat height.toNat),
        s.area.Contains x.toNat y.toNat
    · rw [if_pos haxes]
      obtain ⟨s, hs, hin⟩ := haxes
      exact ⟨iff_of_false (by decide) hbar,
        fun _ => contains_axes (by omega) (by omega) (by omega) hs hin, .inr (.inl rfl)⟩
    · rw [if_neg haxes]
      exact ⟨iff_of_false (by decide) hbar, fun h => absurd h (by decide), .inr (.inr rfl)⟩

/-- Three runs, the second of them the slowest. -/
def three : List Sample := [⟨100, 2⟩, ⟨200, 5⟩, ⟨300, 3⟩]

theorem picture_of_three :
    (91 ≤ (700 : UInt32).toNat ∧ (700 : UInt32).toNat ≤ 16384) ∧
      (102 ≤ (550 : UInt32).toNat ∧ (550 : UInt32).toNat ≤ 16384) ∧
      ∃ rendered, (ofSamples three).render 700 550 = .ok rendered ∧
        rendered.pixel 180 400 = .colour .bar ∧ rendered.pixel 180 100 = .colour .white := by
  have hwidth : 91 ≤ (700 : UInt32).toNat ∧ (700 : UInt32).toNat ≤ 16384 := by decide
  have hheight : 102 ≤ (550 : UInt32).toNat ∧ (550 : UInt32).toNat ≤ 16384 := by decide
  obtain ⟨_, rendered, hrender, _, hpixels⟩ := picture_shows_bars three 700 550 hwidth hheight
  obtain ⟨_, hrendered⟩ := render_eq_ok_iff.mp hrender
  have hareas : rendered.barAreas = (ofSamples three).barAreas (.ofSize 700 550) := by
    rw [hrendered]
    rfl
  refine ⟨hwidth, hheight, rendered, hrender, ?_, ?_⟩
  · refine (hpixels 180 400 (by decide) (by decide) (by decide)).1.mpr ?_
    rw [hareas]
    decide +kernel
  · obtain ⟨hbar, hblack, hall⟩ := hpixels 180 100 (by decide) (by decide) (by decide)
    refine (hall.resolve_left fun h => ?_).resolve_left fun h => ?_
    · have hin := hbar.mp h
      rw [hareas] at hin
      exact absurd hin (by decide +kernel)
    · exact absurd (hblack h) (by decide)

end BarChart

end RehashChart
