import RehashChart.Proofs.Chart.Mapping
import RehashChart.Proofs.Chart.VerticalAxis

/-! # Rows of bars

Heights are numbers of 64 bits, so most of the large ones are rounded before they are divided; this
keeps their order and moves them by much less than a pixel.
-/

namespace RehashChart

open Binary64

namespace BarChart

/-! ## Heights -/

theorem distance_hasValue {n : Nat} {a : Rat} (ha : (ofNat n).HasValue a) :
    (ofNat n - 0).HasValue a := by
  have h := ha.sub zero_hasValue (by rw [sub_zero]; exact ha.representable)
  rwa [sub_zero] at h

/-- Heights up to the end of the axis are shares of it, in order and close to the exact ones. -/
theorem exists_heightShares {low high yMax : Nat} (h : low ≤ high) (h' : high ≤ yMax)
    (hpos : 1 ≤ yMax) (hmax : yMax < 2 ^ 64) :
    ∃ s₁ s₂, (shareOf (ofNat low) 0 (ofNat yMax)).HasValue s₁ ∧
      (shareOf (ofNat high) 0 (ofNat yMax)).HasValue s₂ ∧ 0 ≤ s₁ ∧ s₁ ≤ s₂ ∧
        s₂ ≤ 1 + 1 / 2 ^ 30 ∧ |s₁ - (low : Rat) / yMax| ≤ 1 / 2 ^ 40 := by
  obtain ⟨a, ha, ha₀, _⟩ := exists_ofNat (by omega : low < 2 ^ 64)
  obtain ⟨b, hb, _, _⟩ := exists_ofNat (by omega : high < 2 ^ 64)
  obtain ⟨d, hd, _, _, hd₁⟩ := exists_ofNat hmax
  have hdpos : 0 < d := by linarith [hd₁ hpos]
  have hrounds := roundsTo_of_ofNat ha
  have hrounds' := roundsTo_of_ofNat hb
  have hab : a ≤ b := hrounds.mono hrounds' (by exact_mod_cast h)
  have hbd : b ≤ d := hrounds'.mono (roundsTo_of_ofNat hd) (by exact_mod_cast h')
  obtain ⟨s₁, s₂, hs₁, hs₂, hlow, horder, hhigh⟩ := exists_shares (distance_hasValue ha)
    (distance_hasValue hb) (distance_hasValue hd) hdpos ha₀ hab (by linarith)
  have hquotient := (distance_hasValue ha).div_rounds (distance_hasValue hd) hdpos.ne' hs₁
  have hlowr : (low : Rat) ≤ yMax := by exact_mod_cast h.trans h'
  have hone : (1 : Rat) ≤ yMax := by exact_mod_cast hpos
  have hlow₀ : (0 : Rat) ≤ low := by positivity
  have hanear : |a - low| ≤ (yMax : Rat) / 2 ^ 46 :=
    (hrounds.near_of_nonneg hlow₀).trans (by linarith)
  have hdnear : |d - yMax| ≤ (yMax : Rat) / 2 ^ 48 :=
    ((roundsTo_of_ofNat hd).near_of_nonneg (by positivity)).trans (by linarith)
  exact ⟨s₁, s₂, hs₁, hs₂, hlow, horder, hhigh,
    quotient_near hpos ha₀ hlow₀ hlowr hanear hdnear hquotient⟩

theorem share_zero {yMax : Nat} (hpos : 1 ≤ yMax) (hmax : yMax < 2 ^ 64) :
    (shareOf (ofNat 0) 0 (ofNat yMax)).HasValue 0 := by
  obtain ⟨d, hd, _, _, hd₁⟩ := exists_ofNat hmax
  have hd₀ : d ≠ 0 := by linarith [hd₁ hpos]
  have hzero : (ofNat 0).HasValue 0 := zero_hasValue
  have h := (distance_hasValue hzero).div (distance_hasValue hd) hd₀
    (by rw [zero_div]; exact representable_zero)
  rwa [zero_div] at h

/-! ## Rows -/

section Rows

variable {chart : BarChart} {span : Int} {low high : Nat}

/-- How far a height rises if the axis has its upper end `span` pixels above the lower one. -/
def rise (chart : BarChart) (span : Int) (height : Nat) : Int :=
  (ofInt span * shareOf (ofNat height) 0 (ofNat chart.yMax) +
    .ofRat false (mkRat 1 1000)).floor.toInt32

theorem rise_le (hspan : 0 ≤ span) (hspan' : span ≤ 2 ^ 20) (h : low ≤ high)
    (h' : high ≤ chart.yMax) :
    0 ≤ chart.rise span low ∧ chart.rise span low ≤ chart.rise span high ∧
      chart.rise span high ≤ span := by
  obtain ⟨hpos, hmax⟩ := chart.yMax_bounds
  obtain ⟨s₁, s₂, hs₁, hs₂, h₀, h₁, h₂, _⟩ := exists_heightShares h h' hpos hmax
  obtain ⟨k₁, k₂, hk₁, hk₂, hlow, horder, hhigh⟩ := pixels_up hspan hspan' hs₁ hs₂ h₀ h₁ h₂
  unfold rise
  rw [hk₁, hk₂]
  exact ⟨hlow, horder, hhigh⟩

theorem rise_zero (hspan : 0 ≤ span) (hspan' : span ≤ 2 ^ 20) : chart.rise span 0 = 0 := by
  obtain ⟨hpos, hmax⟩ := chart.yMax_bounds
  exact pixel_of_none (by omega) (.inr (share_zero hpos hmax))

theorem rise_near (hspan : 0 ≤ span) (hspan' : span ≤ 2 ^ 20) (h : high ≤ chart.yMax) :
    |(chart.rise span high : Rat) - span * high / chart.yMax| < 101 / 100 := by
  obtain ⟨hpos, hmax⟩ := chart.yMax_bounds
  obtain ⟨s, _, hs, _, hs₀, _, _, hnear⟩ := exists_heightShares (le_refl high) h hpos hmax
  have hyMax : (0 : Rat) < chart.yMax := by exact_mod_cast hpos
  have hshare : (high : Rat) / chart.yMax ≤ 1 := (div_le_one hyMax).mpr (by exact_mod_cast h)
  obtain ⟨q, hq, _, _, hqnear⟩ := exists_pixel hspan hspan' hs hs₀ hnear hshare
  unfold rise
  rw [hq, mul_div_assoc]
  have hclose := abs_le.mp hqnear
  have hlow := Rat.floor_le q
  have hhigh := Rat.lt_floor_add_one q
  push_cast at hhigh
  rw [abs_lt]
  constructor <;> linarith

variable {plot : Area}

theorem row_eq (hplot : plot.top ≤ plot.bottom - 1) (hsmall : plot.bottom - 1 - plot.top ≤ 2 ^ 20)
    (h : high ≤ chart.yMax) :
    chart.row plot high =
      plot.bottom - 1 - chart.rise (plot.bottom - 1 - plot.top) high := by
  obtain ⟨hpos, hmax⟩ := chart.yMax_bounds
  obtain ⟨s, _, hs, _, hs₀, hs₁, hs₂, _⟩ := exists_heightShares (le_refl high) h hpos hmax
  exact pixelOf_down hplot hsmall hs hs₀ (hs₁.trans hs₂)

/-- Heights up to the end of the vertical axis are rows of the plot or the one that its bottom row
is counted from. -/
theorem row_bounds (chart : BarChart) (plot : Area) (hplot : plot.top ≤ plot.bottom - 1)
    (hsmall : plot.bottom - 1 - plot.top ≤ 2 ^ 20) {height : Nat} (h : height ≤ chart.yMax) :
    plot.top ≤ chart.row plot height ∧ chart.row plot height ≤ plot.bottom - 1 ∧
      (height = 0 → chart.row plot height = plot.bottom - 1) := by
  have hspan : 0 ≤ plot.bottom - 1 - plot.top := by omega
  obtain ⟨hlow, _, hhigh⟩ := rise_le hspan hsmall (le_refl height) h
  rw [row_eq hplot hsmall h]
  refine ⟨by omega, by omega, ?_⟩
  rintro rfl
  rw [rise_zero hspan hsmall, sub_zero]

end Rows

end BarChart

end RehashChart
