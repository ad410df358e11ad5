import RehashChart.Proofs.Chart.Picture

/-! # The heights of the bars

Each bar rises by its share of the vertical axis, over the whole range of heights.
-/

namespace RehashChart.BarChart

theorem rows_of_barAreas {chart : BarChart} {width height : Int} (hwidth : 91 ≤ width)
    (hheight : 102 ≤ height) (hheight' : height ≤ 16384) {i : Nat} {bar : Bar} {area : Area}
    (hbar : chart.bars[i]? = some bar)
    (harea : (chart.barAreas (.ofSize width height))[i]? = some area) :
    bar.height.toNat ≤ chart.yMax ∧ area.bottom = height - 61 ∧
      area.top = height - 61 - chart.rise (height - 102) bar.height.toNat := by
  have hle := height_le_yMax (List.mem_of_getElem? hbar)
  rw [barAreas, List.getElem?_map, hbar, Option.map_some, Option.some.injEq,
    Layout.plot_ofSize hwidth hheight] at harea
  subst harea
  have hrow : ∀ {n : Nat}, n ≤ chart.yMax → chart.row ⟨75, 41, width - 15, height - 60⟩ n =
      height - 60 - 1 - chart.rise (height - 60 - 1 - 41) n :=
    row_eq (by simp only; omega) (by simp only; omega)
  have hspan : height - 60 - 1 - 41 = height - 102 := by omega
  rw [hspan] at hrow
  refine ⟨hle, ?_, ?_⟩
  · have hzero : chart.rise (height - 102) 0 = 0 := rise_zero (by omega) (by omega)
    have hbase := hrow (Nat.zero_le _)
    simp only [barArea]
    omega
  · have htop := hrow hle
    simp only [barArea]
    omega

/-- The bars of a chart are drawn to scale. They stand on the bottom row of the plot, do not leave
it, and rise by their share of the vertical axis, up to a pixel; a bar of height zero does not rise
at all, and one that is not higher than another one does not rise above it. -/
theorem bars_to_scale (chart : BarChart) (width height : UInt32)
    (hwidth : 91 ≤ width.toNat ∧ width.toNat ≤ 16384)
    (hheight : 102 ≤ height.toNat ∧ height.toNat ≤ 16384) :
    ∃ rendered, chart.render width height = .ok rendered ∧
      rendered.barAreas.length = chart.bars.length ∧
      ∀ (i : Nat) (bar : Bar) (area : Area),
        chart.bars[i]? = some bar → rendered.barAreas[i]? = some area →
          area.bottom = height.toNat - 61 ∧ 41 ≤ area.top ∧ area.top ≤ area.bottom ∧
          (bar.height = 0 → area.top = area.bottom) ∧
          |((area.bottom - area.top : Int) : Rat) -
            (height.toNat - 102) * bar.height.toNat / chart.yMax| < 101 / 100 ∧
          ∀ (j : Nat) (bar' : Bar) (area' : Area),
            chart.bars[j]? = some bar' → rendered.barAreas[j]? = some area' →
              bar.height ≤ bar'.height → area'.top ≤ area.top := by
  have hspan : 0 ≤ (height.toNat : Int) - 102 := by omega
  have hspan' : (height.toNat : Int) - 102 ≤ 2 ^ 20 := by omega
  refine ⟨_, render_eq_ok_iff.mpr ⟨isCanvas_of_bounds hwidth hheight, rfl⟩,
    List.length_map _, ?_⟩
  intro i bar area hbar harea
  obtain ⟨hle, hbottom, htop⟩ :=
    rows_of_barAreas (by omega) (by omega) (by omega) hbar harea
  obtain ⟨hlow, _, hhigh⟩ := rise_le hspan hspan' (le_refl bar.height.toNat) hle
  refine ⟨hbottom, by omega, by omega, ?_, ?_, ?_⟩
  · intro hzero
    rw [hzero, UInt64.toNat_zero, rise_zero hspan hspan', sub_zero] at htop
    exact htop.trans hbottom.symm
  · have hnear := rise_near hspan hspan' hle
    rw [hbottom, htop, sub_sub_cancel]
    push_cast at hnear
    exact hnear
  · intro j bar' area' hbar' harea' hheights
    obtain ⟨hle', _, htop'⟩ :=
      rows_of_barAreas (by omega) (by omega) (by omega) hbar' harea'
    obtain ⟨_, horder, _⟩ := rise_le hspan hspan' (UInt64.le_iff_toNat_le.mp hheights) hle'
    omega

/-- A bar that is as high as can be, and one that has no height. -/
def extremes : BarChart := ofSamples [⟨1, 18446744073709551615⟩, ⟨2, 0⟩]

/-- The axis ends where the high bar does, so that bar takes all of the 449 rows but one or two. -/
theorem extremes_to_scale :
    (91 ≤ (700 : UInt32).toNat ∧ (700 : UInt32).toNat ≤ 16384) ∧
      (102 ≤ (550 : UInt32).toNat ∧ (550 : UInt32).toNat ≤ 16384) ∧
      ∃ rendered high low, extremes.render 700 550 = .ok rendered ∧
        rendered.barAreas = [high, low] ∧ high.bottom = 489 ∧ high.top ≤ 42 ∧ low.top = 489 := by
  have hwidth : 91 ≤ (700 : UInt32).toNat ∧ (700 : UInt32).toNat ≤ 16384 := by decide
  have hheight : 102 ≤ (550 : UInt32).toNat ∧ (550 : UInt32).toNat ≤ 16384 := by decide
  obtain ⟨rendered, hrender, hlength, hbars⟩ := bars_to_scale extremes 700 550 hwidth hheight
  obtain ⟨high, low, hareas⟩ := List.length_eq_two.mp hlength
  obtain ⟨hbottom, _, _, _, hnear, _⟩ := hbars 0 ⟨0, "1", 18446744073709551615⟩ high
    (by decide +kernel) (by rw [hareas]; rfl)
  obtain ⟨hbase, _, _, hzero, _⟩ := hbars 1 ⟨1, "2", 0⟩ low (by decide +kernel) (by rw [hareas]; rfl)
  refine ⟨hwidth, hheight, rendered, high, low, hrender, hareas, hbottom, ?_,
    (hzero rfl).trans hbase⟩
  have hyMax : extremes.yMax = 18446744073709551615 := by decide +kernel
  have hall : (18446744073709551615 : UInt64).toNat = 18446744073709551615 := by decide
  have hrows : (550 : UInt32).toNat = 550 := by decide
  rw [hyMax, hall, hbottom, hrows] at hnear
  have htop := (abs_lt.mp hnear).1
  push_cast at htop
  have htop' : (high.top : Rat) < 43 := by linarith
  have htop'' : high.top < 43 := by exact_mod_cast htop'
  omega

end RehashChart.BarChart
