import RehashChart.Proofs.Chart.Picture

/-! # The legend over the bars

The four lines of the frame close it, although the lower one is drawn from right to left and leaves
out its ends. Under the veil a pixel has one of two colours, whether it was blended with seven
others or by itself.
-/

namespace RehashChart.BarChart

/-! ## The parts of the legend -/

/-- The frame of a legend with the upper left corner `p`. -/
def OnFrame (p : Point) (x y : Int) : Prop :=
  ((x = p.x ∨ x = p.x + 188) ∧ p.y ≤ y ∧ y ≤ p.y + 29) ∨
    ((y = p.y ∨ y = p.y + 29) ∧ p.x ≤ x ∧ x ≤ p.x + 188)

instance (p : Point) (x y : Int) : Decidable (OnFrame p x y) :=
  inferInstanceAs (Decidable (_ ∨ _))

def InFrame (p : Point) (x y : Int) : Prop :=
  p.x < x ∧ x < p.x + 188 ∧ p.y < y ∧ y < p.y + 29

instance (p : Point) (x y : Int) : Decidable (InFrame p x y) :=
  inferInstanceAs (Decidable (_ ∧ _))

/-- What the veil covers: the inside of the frame and its left and upper side. -/
def veiled (p : Point) : Area := ⟨p.x, p.y, p.x + 188, p.y + 29⟩

def swatch (p : Point) : Area := ⟨p.x + 10, p.y + 9, p.x + 25, p.y + 19⟩

def frame (p : Point) : List Stroke :=
  [vertical p.x p.y (p.y + 29) .black, horizontal p.y p.x (p.x + 188) .black,
    horizontal (p.y + 29) (p.x + 188) p.x .black, vertical (p.x + 188) (p.y + 29) p.y .black]

theorem contains_frame (p : Point) (x y : Int) :
    (∃ s ∈ frame p, s.area.Contains x y) ↔ OnFrame p x y := by
  simp only [frame, List.mem_cons, List.not_mem_nil, or_false, exists_eq_or_imp, exists_eq_left,
    vertical, horizontal, fill, Area.Contains, OnFrame]
  omega

theorem frame_ink {p : Point} {s : Stroke} (hs : s ∈ frame p) : s.ink = .solid .black := by
  simp only [frame, List.mem_cons, List.not_mem_nil, or_false] at hs
  rcases hs with rfl | rfl | rfl | rfl <;> rfl

theorem OnFrame.bounds {p : Point} {x y : Int} (h : OnFrame p x y) :
    (p.x ≤ x ∧ x ≤ p.x + 188) ∧ p.y ≤ y ∧ y ≤ p.y + 29 := by
  unfold OnFrame at h
  omega

theorem not_swatch_of_onFrame {p : Point} {x y : Int} (h : OnFrame p x y) :
    ¬(swatch p).Contains x y := by
  simp only [OnFrame, swatch, Area.Contains] at h ⊢
  omega

theorem not_onFrame_of_inFrame {p : Point} {x y : Int} (h : InFrame p x y) : ¬OnFrame p x y := by
  simp only [OnFrame, InFrame] at h ⊢
  omega

theorem inFrame_of_swatch {p : Point} {x y : Int} (h : (swatch p).Contains x y) :
    InFrame p x y := by
  simp only [InFrame, swatch, Area.Contains] at h ⊢
  omega

theorem legendCorner_ofSize {width height : Int} (hwidth : 283 ≤ width) (hheight : 136 ≤ height) :
    legendCorner (Layout.ofSize width height).plot = ⟨width - 208, 46⟩ := by
  rw [Layout.plot_ofSize (by omega) (by omega)]
  simp only [legendCorner, legendWidth, legendInset, Point.mk.injEq]
  omega

theorem legend_ofSize {width height : Int} (hwidth : 283 ≤ width) (hheight : 136 ≤ height) :
    legend (Layout.ofSize width height).plot =
      ⟨veiled ⟨width - 208, 46⟩, .veil⟩ :: (frame ⟨width - 208, 46⟩ ++
        [⟨swatch ⟨width - 208, 46⟩, .solid .bar⟩]) := by
  have hcorner := legendCorner_ofSize hwidth hheight
  rw [Layout.plot_ofSize (by omega) (by omega)] at hcorner ⊢
  have hclamp : ∀ {x y : Int}, 75 ≤ x → x ≤ width - 15 → 41 ≤ y → y ≤ height - 60 →
      Area.clamp ⟨75, 41, width - 15, height - 60⟩ ⟨x, y⟩ = ⟨x, y⟩ :=
    fun hx hx' hy hy' => Area.clamp_of_within ⟨hx, hx'⟩ ⟨hy, hy'⟩
  have hmiddle : legendMiddle ⟨75, 41, width - 15, height - 60⟩ = 60 := by
    unfold legendMiddle
    rw [hcorner]
    rfl
  unfold legend
  rw [hcorner, hmiddle]
  simp (disch := omega) only [legendWidth, legendHeight, line, block, hclamp, Area.between_of_le]
  rfl

/-! ## Pixels of the legend -/

/-- Inside the legend there are no axes, so before it a pixel has the colour of the bars or is
white. -/
theorem colourAt_legend {samples : List Sample} {width height x y : Nat} (hwidth : 283 ≤ width)
    (hwidth' : width ≤ 16384) (hheight : 136 ≤ height) (hheight' : height ≤ 16384)
    (hx : (width : Int) - 208 ≤ x ∧ (x : Int) ≤ width - 20) (hy : 46 ≤ y ∧ y ≤ 75) :
    colourAt ((ofSamples samples).strokes width height) width height x y =
      if (swatch ⟨width - 208, 46⟩).Contains x y then .bar
      else if OnFrame ⟨width - 208, 46⟩ x y then .black
      else
        (if ∃ a ∈ (ofSamples samples).barAreas (.ofSize width height), a.Contains x y then
          Colour.bar
        else .white).mapChannels veilOne := by
  have hx' : x < width := by omega
  have hy' : y < height := by omega
  have haxes : ¬∃ s ∈ (ofSamples samples).axes (.ofSize width height), s.area.Contains x y := by
    rintro ⟨s, hs, hin⟩
    have hstrip := contains_axes (by omega) (by omega) (by omega) hs hin
    unfold OnAxes at hstrip
    omega
  rw [colourAt_strokes (by omega) hwidth' (by omega) hheight' hx' hy',
    legend_ofSize (by omega) (by omega), List.foldl_cons, List.foldl_append, if_neg haxes,
    Stroke.apply_veil hx' hy' rfl, foldl_apply_solid hx' hy' fun s hs => frame_ink hs,
    List.foldl_cons, List.foldl_nil, Stroke.apply_solid hx' hy' rfl]
  simp only [contains_frame]
  by_cases hframe : OnFrame ⟨width - 208, 46⟩ x y
  · rw [if_pos hframe, if_pos hframe]
  · have hveil : (veiled ⟨width - 208, 46⟩).Contains x y := by
      unfold OnFrame at hframe
      simp only [veiled, Area.Contains] at hframe ⊢
      omega
    rw [if_neg hframe, if_neg hframe, if_pos hveil]

theorem veil_bar : Colour.bar.mapChannels veilOne = ⟨209, 227, 239⟩ := by decide

theorem veil_white : Colour.white.mapChannels veilOne = .white := by decide

/-- The legend is whole and can be read over any bars. Its frame is black and its swatch has the
colour of the bars, all of them; and of the rest inside the frame each pixel is white or, where a
bar is under it, of one and the same lighter colour. That colour is four fifths of white and one
fifth of the bars' colour, up to rounding, and no matter how many pixels are blended at once. -/
theorem legend_over_bars (samples : List Sample) (width height : UInt32)
    (hwidth : 283 ≤ width.toNat ∧ width.toNat ≤ 16384)
    (hheight : 136 ≤ height.toNat ∧ height.toNat ≤ 16384) :
    legendCorner (Layout.ofSize width.toNat height.toNat).plot = ⟨width.toNat - 208, 46⟩ ∧
    (∃ rendered, (ofSamples samples).render width height = .ok rendered ∧
      ∀ x y : UInt32,
        (OnFrame ⟨width.toNat - 208, 46⟩ x.toNat y.toNat →
          rendered.pixel x y = .colour .black) ∧
        ((swatch ⟨width.toNat - 208, 46⟩).Contains x.toNat y.toNat →
          rendered.pixel x y = .colour .bar) ∧
        (InFrame ⟨width.toNat - 208, 46⟩ x.toNat y.toNat →
          ¬(swatch ⟨width.toNat - 208, 46⟩).Contains x.toNat y.toNat →
            rendered.pixel x y =
              .colour (if ∃ a ∈ rendered.barAreas, a.Contains x.toNat y.toNat then
                Colour.bar.mapChannels veilOne
              else .white))) ∧
    Colour.bar.mapChannels veilOne = ⟨209, 227, 239⟩ ∧
    ∀ c : UInt8, veilEight c = veilOne c ∧ 5 * (veilOne c).toNat ≤ c.toNat + 4 * 255 ∧
      c.toNat + 4 * 255 < 5 * ((veilOne c).toNat + 2) := by
  refine ⟨legendCorner_ofSize (by omega) (by omega), ?_, veil_bar,
    fun c => ⟨veilEight_eq c, veilOne_bounds c⟩⟩
  have hrender : (ofSamples samples).render width height = .ok _ :=
    render_eq_ok_iff.mpr ⟨isCanvas_of_bounds (by omega) (by omega), rfl⟩
  refine ⟨_, hrender, fun x y => ?_⟩
  have hpixel : (width.toNat : Int) - 208 ≤ x.toNat ∧ (x.toNat : Int) ≤ width.toNat - 20 →
      46 ≤ y.toNat ∧ y.toNat ≤ 75 → _ := fun hx hy =>
    (pixel_of_render hrender (UInt32.lt_iff_toNat_lt.mpr (by omega))
      (UInt32.lt_iff_toNat_lt.mpr (by omega))).trans
      (congrArg _ (colourAt_legend hwidth.1 hwidth.2 hheight.1 hheight.2 hx hy))
  refine ⟨fun hframe => ?_, fun hswatch => ?_, fun hinside hnot => ?_⟩
  · have hbounds := hframe.bounds
    rw [hpixel (by simp only at hbounds; omega) (by simp only at hbounds; omega),
      if_neg (not_swatch_of_onFrame hframe), if_pos hframe]
  · have hbounds := inFrame_of_swatch hswatch
    unfold InFrame at hbounds
    rw [hpixel (by simp only at hbounds; omega) (by simp only at hbounds; omega), if_pos hswatch]
  · have hbounds := hinside
    unfold InFrame at hbounds
    rw [hpixel (by simp only at hbounds; omega) (by simp only at hbounds; omega), if_neg hnot,
      if_neg (not_onFrame_of_inFrame hinside)]
    congr 1
    split
    · rfl
    · exact veil_white

/-- A single run, whose bar lies under the middle of the legend. -/
def alone : List Sample := [⟨64, 9⟩]

theorem legend_over_alone :
    (283 ≤ (283 : UInt32).toNat ∧ (283 : UInt32).toNat ≤ 16384) ∧
      (136 ≤ (136 : UInt32).toNat ∧ (136 : UInt32).toNat ≤ 16384) ∧
      ∃ rendered, (ofSamples alone).render 283 136 = .ok rendered ∧
        rendered.pixel 75 75 = .colour .black ∧ rendered.pixel 85 55 = .colour .bar ∧
        rendered.pixel 170 60 = .colour ⟨209, 227, 239⟩ ∧
        rendered.pixel 260 60 = .colour .white := by
  have hwidth : 283 ≤ (283 : UInt32).toNat ∧ (283 : UInt32).toNat ≤ 16384 := by decide
  have hheight : 136 ≤ (136 : UInt32).toNat ∧ (136 : UInt32).toNat ≤ 16384 := by decide
  obtain ⟨_, ⟨rendered, hrender, hpixels⟩, hveil, _⟩ :=
    legend_over_bars alone 283 136 hwidth hheight
  obtain ⟨_, hrendered⟩ := render_eq_ok_iff.mp hrender
  have hareas : rendered.barAreas = [⟨137, 45, 204, 75⟩] := by
    rw [hrendered]
    decide +kernel
  refine ⟨hwidth, hheight, rendered, hrender, (hpixels 75 75).1 (by decide),
    (hpixels 85 55).2.1 (by decide), ?_, ?_⟩
  · rw [(hpixels 170 60).2.2 (by decide) (by decide), hareas, if_pos (by decide), hveil]
  · rw [(hpixels 260 60).2.2 (by decide) (by decide), hareas, if_neg (by decide)]

end RehashChart.BarChart
