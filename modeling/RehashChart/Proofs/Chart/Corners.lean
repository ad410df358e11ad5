import RehashChart.Proofs.Chart.Picture

/-! # Corners on every canvas

Where the edges of the plot cross they are sorted, so an empty plot has its last pixel before its
first. The mapping still takes every part of an axis to a pixel between the two that the axis is
spread over, so the corners of the bars do not go astray.
-/

namespace RehashChart

open Binary64

/-! ## Parts of the way in either direction -/

/-- A part of the way from one end of an axis to the other, up to rounding; on an axis that has no
length or no end it may be none at all, or not a number. -/
def IsPart (x : Binary64) : Prop :=
  x = nan ∨ ∃ s, x.HasValue s ∧ 0 ≤ s ∧ s ≤ 1 + 1 / 2 ^ 30

section Mapping

variable {v lo hi : Binary64} {a b : Int}

theorem pixelOf_nan (hsmall : (b - a).natAbs ≤ 2 ^ 20) (hshare : shareOf v lo hi = nan) :
    pixelOf v lo hi a b = a ∨ pixelOf v lo hi a b = b := by
  have hfactor : (ofInt (b - a)).HasValue (b - a : Int) :=
    ofInt_hasValue (by simp only [significands]; omega)
  obtain ⟨s, m, e, hc, heq, -⟩ := hfactor.eq_finite
  have hup : (ofInt (b - a) * shareOf v lo hi + .ofRat false (mkRat 1 1000)).floor.toInt32 = 0 := by
    rw [hshare, heq]
    rfl
  have hdown : (ofInt (b - a) * shareOf v lo hi - .ofRat false (mkRat 1 1000)).ceil.toInt32 = 0 := by
    rw [hshare, heq]
    rfl
  unfold shareOf at hup hdown
  unfold pixelOf
  dsimp only
  rw [hup, hdown]
  split
  · exact .inr rfl
  · split <;> exact .inl (add_zero a)

theorem pixelOf_up (h : a ≤ b) (hsmall : b - a ≤ 2 ^ 20) {s : Rat}
    (hs : (shareOf v lo hi).HasValue s) (h₀ : 0 ≤ s) (h₁ : s ≤ 1 + 1 / 2 ^ 30) :
    a ≤ pixelOf v lo hi a b ∧ pixelOf v lo hi a b ≤ b := by
  obtain ⟨k, _, hk, _, hlow, _, hhigh⟩ :=
    pixels_up (by omega : 0 ≤ b - a) hsmall hs hs h₀ (le_refl s) h₁
  unfold shareOf at hk
  unfold pixelOf
  dsimp only
  rw [hk]
  split
  · omega
  · rw [if_pos (by omega)]
    omega

/-- A part of an axis is at a pixel between the two that the axis is spread over. -/
theorem pixelOf_between (hsmall : (b - a).natAbs ≤ 2 ^ 20) (hpart : IsPart (shareOf v lo hi)) :
    min a b ≤ pixelOf v lo hi a b ∧ pixelOf v lo hi a b ≤ max a b := by
  rcases hpart with hnan | ⟨s, hs, h₀, h₁⟩
  · have hends := pixelOf_nan hsmall hnan
    omega
  · rcases le_total a b with hup | hdown
    · have hbounds := pixelOf_up hup (by omega) hs h₀ h₁
      omega
    · obtain ⟨k, _, hk, _, hlow, _, hhigh⟩ :=
        pixels_up (by omega : 0 ≤ a - b) (by omega) hs hs h₀ (le_refl s) h₁
      rw [pixelOf_down hdown (by omega) hs h₀ h₁, hk]
      omega

end Mapping

/-! ## Layouts -/

/-- A layout with its edges in order, on the canvas or a little off it. -/
structure Layout.Near (l : Layout) : Prop where
  columns : -14 ≤ l.columns.first ∧ l.columns.first ≤ l.columns.second ∧
    l.columns.second ≤ l.columns.third ∧ l.columns.third ≤ l.columns.fourth ∧
    l.columns.fourth ≤ 16384
  rows : -59 ≤ l.rows.first ∧ l.rows.first ≤ l.rows.second ∧ -14 ≤ l.rows.second ∧
    l.rows.second ≤ l.rows.third ∧ l.rows.third ≤ l.rows.fourth ∧ l.rows.fourth ≤ 16384

/-- The parts of every canvas are near it, however small it is. -/
theorem Layout.near_ofSize {width height : Int} (hwidth : 1 ≤ width ∧ width ≤ 16384)
    (hheight : 1 ≤ height ∧ height ≤ 16384) : (Layout.ofSize width height).Near := by
  constructor
  · simp only [ofSize, Cuts.of, margin, yLabelWidth]
    omega
  · simp only [ofSize, Cuts.of, margin, titleHeight, xLabelHeight]
    omega

theorem Layout.Near.plot_small {l : Layout} (h : l.Near) :
    (l.plot.right - 1 - l.plot.left).natAbs ≤ 2 ^ 20 ∧
      (l.plot.top - (l.plot.bottom - 1)).natAbs ≤ 2 ^ 20 := by
  obtain ⟨hcolumns, hrows⟩ := h
  simp only [plot]
  omega

structure Area.Near (off : Int) (a : Area) : Prop where
  left : -off ≤ a.left ∧ a.left ≤ 16384
  top : -off ≤ a.top ∧ a.top ≤ 16384
  right : -off ≤ a.right ∧ a.right ≤ 16384
  bottom : -off ≤ a.bottom ∧ a.bottom ≤ 16384

theorem Layout.Near.areas {l : Layout} (h : l.Near) :
    l.plot.Near 59 ∧ l.above.Near 59 ∧ l.below.Near 59 ∧ l.leftOf.Near 59 ∧ l.rightOf.Near 59 := by
  obtain ⟨hcolumns, hrows⟩ := h
  refine ⟨?_, ?_, ?_, ?_, ?_⟩ <;> constructor <;>
    simp only [plot, above, below, leftOf, rightOf] <;> omega

namespace BarChart

/-! ## Corners -/

theorem SharesInOrder.isPart {n : Nat} {x y : Binary64} (h : SharesInOrder n x y) :
    IsPart (shareOf x (-oneHalf) (ofNat n - oneHalf)) ∧
      IsPart (shareOf y (-oneHalf) (ofNat n - oneHalf)) := by
  rcases h with ⟨s₁, s₂, hs₁, hs₂, h₀, h₁, h₂⟩ | hinfinite
  · exact ⟨.inr ⟨s₁, hs₁, h₀, h₁.trans h₂⟩, .inr ⟨s₂, hs₂, h₀.trans h₁, h₂⟩⟩
  · have hnone : ∀ v, IsPart (shareOf v (-oneHalf) (ofNat n - oneHalf)) := fun v =>
      (share_beyond hinfinite v).imp_right fun hzero => ⟨0, hzero, le_refl 0, by norm_num⟩
    exact ⟨hnone x, hnone y⟩

theorem isPart_height {height yMax : Nat} (h : height ≤ yMax) (hpos : 1 ≤ yMax)
    (hmax : yMax < 2 ^ 64) : IsPart (shareOf (ofNat height) 0 (ofNat yMax)) := by
  obtain ⟨s, _, hs, _, h₀, h₁, h₂, _⟩ := exists_heightShares (le_refl height) h hpos hmax
  exact .inr ⟨s, hs, h₀, h₁.trans h₂⟩

theorem le_yMax_of_mem_yKeyPoints {chart : BarChart} {height : Nat}
    (h : height ∈ chart.yKeyPoints) : height ≤ chart.yMax := by
  obtain ⟨k, hk, rfl⟩ := List.mem_map.mp h
  have hcount : k ≤ chart.yMax / KeyPoints.wholeStep chart.yMax :=
    Nat.le_of_lt_succ (List.mem_range.mp hk)
  exact (Nat.mul_le_mul_right _ hcount).trans (Nat.div_mul_le_self _ _)

section Corners

variable {chart : BarChart} {plot : Area}

theorem column_between {x : Binary64}
    (hpart : IsPart (shareOf x (-oneHalf) (ofNat chart.slots - oneHalf)))
    (hsmall : (plot.right - 1 - plot.left).natAbs ≤ 2 ^ 20) :
    min plot.left (plot.right - 1) ≤ chart.column plot x ∧
      chart.column plot x ≤ max plot.left (plot.right - 1) :=
  pixelOf_between hsmall hpart

theorem row_between {height : Nat} (h : height ≤ chart.yMax)
    (hsmall : (plot.top - (plot.bottom - 1)).natAbs ≤ 2 ^ 20) :
    min (plot.bottom - 1) plot.top ≤ chart.row plot height ∧
      chart.row plot height ≤ max (plot.bottom - 1) plot.top :=
  pixelOf_between hsmall (isPart_height h chart.yMax_bounds.1 chart.yMax_bounds.2)

/-- The corners of a bar are not far from the canvas. -/
theorem barArea_near {layout : Layout} (h : layout.Near) {bar : Bar} (hbar : bar ∈ chart.bars)
    (hposition : bar.position < chart.slots) : (chart.barArea layout.plot bar).Near 15 := by
  obtain ⟨hacross, hdown⟩ := h.plot_small
  obtain ⟨hleftPart, hrightPart⟩ := (bar_inOrder hposition).isPart
  have hleft := column_between hleftPart hacross
  have hright := column_between hrightPart hacross
  have htop := row_between (height_le_yMax hbar) hdown
  have hbottom := row_between (Nat.zero_le chart.yMax) hdown
  obtain ⟨hcolumns, hrows⟩ := h
  unfold barArea
  dsimp only
  simp only [Layout.plot] at hleft hright htop hbottom ⊢
  constructor <;> dsimp only <;> omega

theorem near_of_mem_barAreas {samples : List Sample} {layout : Layout} (h : layout.Near) {a : Area}
    (ha : a ∈ (ofSamples samples).barAreas layout) : a.Near 15 := by
  obtain ⟨bar, hbar, rfl⟩ := List.mem_map.mp ha
  exact barArea_near h hbar (position_lt_slots hbar)

end Corners

end BarChart

end RehashChart
