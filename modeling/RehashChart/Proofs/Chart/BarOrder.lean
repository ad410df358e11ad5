import RehashChart.Proofs.Chart.Picture

/-! # The order of the bars

The columns of the bars come from how many rows there are and from how wide the canvas is, and from
nothing else.
-/

namespace RehashChart.BarChart

open Binary64

theorem columns_of_barAreas {samples : List Sample} (hsamples : 1 ≤ samples.length)
    (width height : Int) (hwidth : 91 ≤ width) (hheight : 102 ≤ height) :
    ((ofSamples samples).barAreas (.ofSize width height)).map (fun a => (a.left, a.right)) =
      (List.range samples.length).map fun i =>
        (columnOf samples.length 75 (width - 16) (ofNat i - halfBar),
          columnOf samples.length 75 (width - 16) (ofNat i + halfBar)) := by
  have hlast : width - 15 - 1 = width - 16 := by omega
  rw [barAreas, List.map_map, ← positions_ofSamples, List.map_map,
    Layout.plot_ofSize hwidth hheight]
  refine List.map_congr_left fun bar _ => ?_
  simp only [Function.comp_apply, barArea, column, columnOf, slots_ofSamples,
    max_eq_right hsamples, hlast]

theorem disjoint_barStrokes {samples : List Sample} {width height : Int} (hwidth : 91 ≤ width)
    (hwidth' : width ≤ 16384) (hheight : 102 ≤ height) (hheight' : height ≤ 16384)
    (h : ((ofSamples samples).barAreas (.ofSize width height)).Pairwise
      fun a b => a.right ≤ b.left) :
    ((ofSamples samples).barStrokes (.ofSize width height)).Pairwise
      fun s t => ∀ x y, ¬(s.area.Contains x y ∧ t.area.Contains x y) := by
  refine List.pairwise_map.mpr (h.imp_of_mem fun {a b} ha hb hab => ?_)
  rw [barStroke_area hwidth hwidth' hheight hheight' ha,
    barStroke_area hwidth hwidth' hheight hheight' hb]
  rintro x y ⟨⟨_, hless, _⟩, hmore, _⟩
  omega

/-- The bars of a chart stand in the plot, from left to right in the order of the rows and apart
from each other if there are columns enough, and each of them is as wide as its share, up to a
column. Where they begin and end does not depend on what the rows say or on the height of the
canvas. -/
theorem bars_left_to_right (n : Nat) (hn : 1 ≤ n) (width : UInt32)
    (hwidth : 91 ≤ width.toNat ∧ width.toNat ≤ 16384) :
    ∃ left right : Nat → Int,
      (∀ i < n, 75 ≤ left i ∧ left i ≤ right i ∧ right i ≤ width.toNat - 16 ∧
        |((right i - left i : Int) : Rat) - 35 / 100 * (width.toNat - 91) / n| < 101 / 100) ∧
      (∀ i j, i < j → j < n →
        right i ≤ left j ∧ (2 * n ≤ width.toNat - 91 → right i < left j)) ∧
      ∀ (samples : List Sample) (height : UInt32), samples.length = n →
        102 ≤ height.toNat ∧ height.toNat ≤ 16384 →
          ∃ rendered, (ofSamples samples).render width height = .ok rendered ∧
            rendered.barAreas.map (fun a => (a.left, a.right)) =
              (List.range n).map (fun i => (left i, right i)) ∧
            ((ofSamples samples).barStrokes (.ofSize width.toNat height.toNat)).Pairwise
              fun s t => ∀ x y, ¬(s.area.Contains x y ∧ t.area.Contains x y) := by
  have hlast : (75 : Int) ≤ width.toNat - 16 := by omega
  have hsmall : (width.toNat - 16 : Int) - 75 ≤ 2 ^ 20 := by omega
  have horder : ∀ i j, i < j → j < n →
      columnOf n 75 (width.toNat - 16) (ofNat i + halfBar) ≤
        columnOf n 75 (width.toNat - 16) (ofNat j - halfBar) :=
    fun i j hij hj => (columnOf_le (bars_inOrder hij hj) hlast hsmall).2.1
  refine ⟨fun i => columnOf n 75 (width.toNat - 16) (ofNat i - halfBar),
    fun i => columnOf n 75 (width.toNat - 16) (ofNat i + halfBar), ?_, ?_, ?_⟩
  · intro i hi
    obtain ⟨hlow, hle, hhigh⟩ := columnOf_le (bar_inOrder hi) hlast hsmall
    have hspan : (((width.toNat - 16 : Int) - 75 : Int) : Rat) = width.toNat - 91 := by
      push_cast
      ring
    refine ⟨hlow, hle, hhigh, ?_⟩
    have hshare := columnOf_width hi hlast hsmall
    rwa [hspan] at hshare
  · intro i j hij hj
    exact ⟨horder i j hij hj, fun hroom => columnOf_lt hij hj hsmall (by omega)⟩
  · rintro samples height rfl hheight
    have hcolumns := columns_of_barAreas hn width.toNat height.toNat (by omega) (by omega)
    refine ⟨_, render_eq_ok_iff.mpr ⟨isCanvas_of_bounds hwidth hheight, rfl⟩, hcolumns, ?_⟩
    refine disjoint_barStrokes (by omega) (by omega) (by omega) (by omega) ?_
    have hsides : (((ofSamples samples).barAreas (.ofSize width.toNat height.toNat)).map
        fun a => (a.left, a.right)).Pairwise fun p q => p.2 ≤ q.1 := by
      rw [hcolumns, List.pairwise_map]
      exact List.pairwise_lt_range.imp_of_mem fun _ hj hij =>
        horder _ _ hij (List.mem_range.mp hj)
    exact List.pairwise_map.mp hsides

/-- Three bars on the narrowest canvas where they stand apart. -/
theorem three_left_to_right :
    1 ≤ 3 ∧ (91 ≤ (97 : UInt32).toNat ∧ (97 : UInt32).toNat ≤ 16384) ∧
      ∃ left right : Nat → Int, 75 ≤ left 0 ∧ right 0 < left 1 ∧ right 1 < left 2 ∧ right 2 ≤ 81 ∧
        ∃ rendered, (ofSamples three).render 97 102 = .ok rendered ∧
          rendered.barAreas.map (fun a => (a.left, a.right)) =
            [(left 0, right 0), (left 1, right 1), (left 2, right 2)] := by
  have hwidth : 91 ≤ (97 : UInt32).toNat ∧ (97 : UInt32).toNat ≤ 16384 := by decide
  obtain ⟨left, right, hsides, horder, hall⟩ := bars_left_to_right 3 (by decide) 97 hwidth
  obtain ⟨rendered, hrender, hcolumns, _⟩ := hall three 102 rfl (by decide)
  exact ⟨by decide, hwidth, left, right, (hsides 0 (by decide)).1,
    (horder 0 1 (by decide) (by decide)).2 (by decide),
    (horder 1 2 (by decide) (by decide)).2 (by decide), (hsides 2 (by decide)).2.2.1, rendered,
    hrender, hcolumns⟩

end RehashChart.BarChart
