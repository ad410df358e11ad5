import RehashChart.Proofs.Chart.Picture

/-! # Labels below the bars

Taking the nearest integer off a number makes no error, so the test for a label compares exactly;
and a place that passes it is in a column of its bar.
-/

namespace RehashChart.BarChart

open Binary64

/-! ## Places of labels -/

/-- A number is at a place of the horizontal axis, up to the tolerance. -/
def IsAt (x : Binary64) (place : Nat) : Prop :=
  x.isFinite = true ∧ |x.toRat - place| ≤ labelTolerance.toRat

instance (x : Binary64) (place : Nat) : Decidable (IsAt x place) :=
  inferInstanceAs (Decidable (_ ∧ _))

theorem exists_labelTolerance : ∃ t, labelTolerance.HasValue t ∧ 0 ≤ t ∧ t ≤ 1 / 8 := by
  obtain ⟨t, ht, hlow, hhigh⟩ := ofRat_mkRat_between false (n := 1) (d := 1000000)
    representable_zero (representable_one_div_two_pow (k := 3) (by decide)) (by norm_num)
    (by norm_num)
  exact ⟨t, ht, hlow, hhigh.trans (by norm_num)⟩

section Places

variable {x : Binary64} {i j : Nat} {p t : Rat}

theorem isAt_iff (hx : x.HasValue p) (ht : labelTolerance.HasValue t) :
    IsAt x i ↔ |p - i| ≤ t := by
  rw [IsAt, hx.value, ht.value]
  exact and_iff_right hx.finite

theorem IsAt.near (h : IsAt x i) : x.HasValue x.toRat ∧ |x.toRat - i| ≤ 1 / 8 := by
  obtain ⟨t, ht, _, hhigh⟩ := exists_labelTolerance
  obtain ⟨hfinite, hnear⟩ := h
  rw [ht.value] at hnear
  exact ⟨⟨hfinite, rfl⟩, hnear.trans hhigh⟩

theorem IsAt.unique (hi : IsAt x i) (hj : IsAt x j) : i = j := by
  have hround : ∀ {k : Nat}, IsAt x k → roundAway x.toRat = k := fun hk =>
    roundAway_eq_of_near (by exact_mod_cast hk.near.2.trans_lt (by norm_num))
  have hsame := (hround hi).symm.trans (hround hj)
  exact_mod_cast hsame

/-! ## The text at a place -/

/-- The label of the nearest integer is printed if that is a place and near enough. -/
theorem labelAt_eq (chart : BarChart) (hx : x.HasValue p) (ht : labelTolerance.HasValue t) :
    chart.labelAt x =
      if roundAway p < 0 ∨ t < |p - roundAway p| then ""
      else (chart.bars[min (UInt64.size - 1) (roundAway p).toNat]?.map (·.label)).getD "" := by
  have hindex := hx.round
  have hnegative : x.round.lt 0 = decide (roundAway p < 0) := by
    rw [hindex.lt_eq zero_hasValue]
    exact decide_eq_decide.mpr (by exact_mod_cast Iff.rfl)
  unfold labelAt
  dsimp only
  rw [hnegative, ht.lt_eq hx.sub_round.abs, ← Bool.decide_or]
  simp only [decide_eq_true_eq]
  split
  · rfl
  · rename_i hnear
    have hpos : (0 : Rat) ≤ (roundAway p : Int) := by exact_mod_cast not_lt.mp (not_or.mp hnear).1
    rw [hindex.toNat64_eq hpos, Rat.floor_intCast]
    cases chart.bars[min (UInt64.size - 1) (roundAway p).toNat]? with
    | none => rfl
    | some bar => rfl

theorem labelAt_of_isAt (chart : BarChart) (h : IsAt x i) (hi : i < UInt64.size) :
    chart.labelAt x = (chart.bars[i]?.map (·.label)).getD "" := by
  obtain ⟨t, ht, _⟩ := exists_labelTolerance
  obtain ⟨hx, hnear⟩ := h.near
  have hround : roundAway x.toRat = i :=
    roundAway_eq_of_near (by exact_mod_cast hnear.trans_lt (by norm_num))
  have hclose := (isAt_iff hx ht).mp h
  rw [labelAt_eq chart hx ht, hround, if_neg, Int.toNat_natCast, min_eq_right (by omega)]
  rw [not_or, not_lt, not_lt]
  exact ⟨Int.natCast_nonneg i, by exact_mod_cast hclose⟩

theorem labelAt_of_far {chart : BarChart} (hmany : chart.bars.length < UInt64.size)
    (hx : x.HasValue p) (h : ∀ i < chart.bars.length, ¬IsAt x i) : chart.labelAt x = "" := by
  obtain ⟨t, ht, _⟩ := exists_labelTolerance
  rw [labelAt_eq chart hx ht]
  split
  · rfl
  · rename_i hnear
    rw [not_or, not_lt, not_lt] at hnear
    obtain ⟨hpos, hclose⟩ := hnear
    have hplace : ((roundAway p).toNat : Int) = roundAway p := Int.toNat_of_nonneg hpos
    have hat : IsAt x (roundAway p).toNat :=
      (isAt_iff hx ht).mpr (by rwa [← Int.cast_natCast, hplace])
    have hbeyond : chart.bars.length ≤ (roundAway p).toNat := by
      by_contra hless
      exact h _ (Nat.lt_of_not_le hless) hat
    rw [List.getElem?_eq_none (by omega)]
    rfl

/-- An infinity passes the test on the right side, since its difference to itself is no number; but
no bar stands so far. -/
theorem labelAt_infinity {chart : BarChart} (hmany : chart.bars.length < UInt64.size)
    (negative : Bool) : chart.labelAt (infinity negative) = "" := by
  cases negative with
  | true => rfl
  | false =>
      have hindex : (infinity false).round.toNat64 = UInt64.size - 1 := rfl
      unfold labelAt
      dsimp only
      rw [hindex, List.getElem?_eq_none (Nat.le_sub_one_of_lt hmany)]
      exact ite_self _

end Places

/-! ## Bars and their labels -/

/-- A label is printed under its own bar only. A number is at one place at most; if a bar stands
there, the number has the label of that bar, and on every canvas its column is between the sides of
the bar; if none does, it has no label. A list in memory has fewer rows than there are indices, and
the greatest index is the one that infinity and other large numbers are cast to. -/
theorem label_under_own_bar (samples : List Sample) (hmany : samples.length < UInt64.size)
    (x : Binary64) (hx : x ≠ nan) :
    (∀ i j, IsAt x i → IsAt x j → i = j) ∧
    (∀ i bar, (ofSamples samples).bars[i]? = some bar → IsAt x i →
      (ofSamples samples).labelAt x = bar.label ∧
      ∀ width height : UInt32, 91 ≤ width.toNat ∧ width.toNat ≤ 16384 →
        102 ≤ height.toNat ∧ height.toNat ≤ 16384 →
          ∃ rendered area, (ofSamples samples).render width height = .ok rendered ∧
            rendered.barAreas[i]? = some area ∧
            area.left ≤ (ofSamples samples).column
              (Layout.ofSize width.toNat height.toNat).plot x ∧
            (ofSamples samples).column
              (Layout.ofSize width.toNat height.toNat).plot x ≤ area.right) ∧
    ((∀ i < samples.length, ¬IsAt x i) → (ofSamples samples).labelAt x = "") := by
  have hlength := length_ofSamples samples
  refine ⟨fun i j => IsAt.unique, ?_, ?_⟩
  · intro i bar hbar hat
    have hi := (List.getElem?_eq_some_iff.mp hbar).1
    refine ⟨?_, ?_⟩
    · rw [labelAt_of_isAt _ hat (by omega), hbar]
      rfl
    · intro width height hwidth hheight
      refine ⟨_, (ofSamples samples).barArea (Layout.ofSize width.toNat height.toNat).plot bar,
        render_eq_ok_iff.mpr ⟨isCanvas_of_bounds hwidth hheight, rfl⟩, ?_, ?_⟩
      · rw [barAreas, List.getElem?_map, hbar]
        rfl
      · obtain ⟨hvalue, hnear⟩ := hat.near
        have hslots : i < (ofSamples samples).slots := lt_max_of_lt_right hi
        rw [Layout.plot_ofSize (by omega) (by omega)]
        have hcolumns := column_around (ofSamples samples)
          ⟨75, 41, width.toNat - 15, height.toNat - 60⟩ (by simp only; omega)
          (by simp only; omega) hslots hvalue hnear
        rw [← position_of_getElem? hbar] at hcolumns
        exact hcolumns
  · intro hfar
    rw [← hlength] at hmany hfar
    cases x with
    | nan => exact absurd rfl hx
    | infinity negative => exact labelAt_infinity hmany negative
    | finite s m e hcanonical => exact labelAt_of_far hmany ⟨rfl, rfl⟩ hfar

/-- A bit right of the last of three bars. -/
def besideThird : Binary64 := ofRat false (mkRat 20000000001 10000000000)

theorem label_under_third :
    three.length < UInt64.size ∧ besideThird ≠ nan ∧ (ofSamples three).labelAt besideThird = "300" ∧
      ∃ rendered area, (ofSamples three).render 700 550 = .ok rendered ∧
        rendered.barAreas[2]? = some area ∧
        area.left ≤ (ofSamples three).column (Layout.ofSize 700 550).plot besideThird := by
  have hmany : three.length < UInt64.size := by decide
  have hnumber : besideThird ≠ nan := by decide +kernel
  obtain ⟨hlabel, hcolumns⟩ := (label_under_own_bar three hmany besideThird hnumber).2.1 2
    ⟨2, "300", 3⟩ (by decide +kernel) (by decide +kernel)
  obtain ⟨rendered, area, hrender, harea, hleft, _⟩ := hcolumns 700 550 (by decide) (by decide)
  exact ⟨hmany, hnumber, hlabel, rendered, area, hrender, harea, hleft⟩

end RehashChart.BarChart
