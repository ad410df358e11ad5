import RehashChart.Proofs.Chart.KeyPoints
import RehashChart.Proofs.Chart.Labels

/-! # A tick for every bar

The ticks of the horizontal axis stand at the places of the bars, and their labels are those of the
bars, in order. Nothing is left out, said twice, or said of another bar.
-/

namespace RehashChart.BarChart

open Binary64 KeyPoints

/-! ## Labels -/

theorem labelAt_ofNat (chart : BarChart) {k : Nat} (hk : k < significands) :
    chart.labelAt (ofNat k) = (chart.bars[k]?.map (·.label)).getD "" := by
  obtain ⟨t, ht, hpos, _⟩ := exists_labelTolerance
  refine labelAt_of_isAt chart ((isAt_iff (ofNat_hasValue hk) ht).mpr ?_) ?_
  · rwa [sub_self, abs_zero]
  · simp only [significands] at hk
    simp only [UInt64.size]
    omega

theorem map_labelAt (chart : BarChart) (h : chart.bars.length ≤ 2 ^ 40) :
    ((List.range chart.bars.length).map ofNat).map chart.labelAt = chart.bars.map (·.label) := by
  apply List.ext_getElem (by simp)
  intro k hk hk'
  have hlength : k < chart.bars.length := by simpa using hk'
  rw [List.getElem_map, List.getElem_map, List.getElem_range,
    labelAt_ofNat chart (by simp only [significands]; omega), List.getElem?_eq_getElem hlength,
    List.getElem_map]
  rfl

/-! ## The power of ten of the length -/

theorem decadeOf_bounds {x : Binary64} {n : Nat} (h : x.toNat64 = n) {k : Nat} (hk : 0 < k)
    (hn : n < 10 ^ k) : 0 ≤ decadeOf x ∧ decadeOf x < k := by
  have hlow : 0 < (Nat.toDigits 10 n).length := Nat.length_toDigits_pos
  have hhigh := (Nat.length_toDigits_le_iff (by decide) hk).mpr hn
  unfold decadeOf
  rw [h]
  omega

/-! ## All ticks -/

def axisEnd (chart : BarChart) : Binary64 := Binary64.ofNat chart.slots - oneHalf

def axisDecade (chart : BarChart) : Int := decadeOf (chart.axisEnd - -oneHalf)

theorem axisDecade_bounds (chart : BarChart) (h : chart.slots < 2 ^ 63) :
    0 ≤ chart.axisDecade ∧ chart.axisDecade < 20 ∧
      (chart.slots ≤ 2 ^ 32 → chart.axisDecade < 10) := by
  have hslots : 1 ≤ chart.slots := le_max_left _ _
  obtain ⟨c, hc, hlow, _⟩ := exists_length hslots h
  have hnr : (1 : Rat) ≤ chart.slots := by exact_mod_cast hslots
  have hpos : 0 ≤ c := by linarith
  have hcount := hc.toNat64_eq hpos
  have hless : min (UInt64.size - 1) c.floor.toNat < 10 ^ 20 := by
    simp only [UInt64.size]
    omega
  obtain ⟨h₁, h₂⟩ := decadeOf_bounds hcount (k := 20) (by decide) hless
  refine ⟨h₁, h₂, ?_⟩
  intro hsmall
  have hexact : (chart.axisEnd - -oneHalf).HasValue (chart.slots : Nat) := by
    have hvalue : (chart.slots - 1 / 2 - -(1 / 2) : Rat) = chart.slots := by ring
    have hsub := (high_hasValue hslots (by omega)).sub low_hasValue
      (by rw [hvalue]; exact representable_natCast (by simp only [significands]; omega))
    rwa [hvalue] at hsub
  have hcount' := hexact.toNat64_eq (by positivity)
  rw [← Int.cast_natCast, Rat.floor_intCast, Int.toNat_natCast] at hcount'
  exact (decadeOf_bounds hcount' (k := 10) (by decide) (by omega)).2

theorem slots_of_ne_nil {chart : BarChart} (h : chart.bars ≠ []) :
    chart.slots = chart.bars.length := by
  have hpos := List.length_pos_of_ne_nil h
  unfold slots
  omega

theorem points_axis {chart : BarChart} (h : chart.slots ≤ 2 ^ 32) {decade : Int}
    (hdecade : |decade - chart.axisDecade| ≤ 1) :
    fractionalIn (-oneHalf) chart.axisEnd chart.slots decade =
        (List.range chart.slots).map ofNat ∧
      Finds (-oneHalf) chart.axisEnd chart.slots decade ((List.range chart.slots).map ofNat) ∧
      ∀ count, chart.slots ≤ count →
        pointsIn (-oneHalf) chart.axisEnd
            (fractionalStep (-oneHalf) chart.axisEnd chart.slots decade).1
            (fractionalStep (-oneHalf) chart.axisEnd chart.slots decade).2 count =
          (List.range chart.slots).map ofNat := by
  have hslots : 1 ≤ chart.slots := le_max_left _ _
  obtain ⟨hlow, _, hhigh⟩ := axisDecade_bounds chart (by omega)
  have hhigh' := hhigh h
  rw [abs_le] at hdecade
  exact ⟨fractionalIn_eq hslots (by omega) (by omega) (by omega),
    points_of_axis hslots (by omega) (by omega) (by omega)⟩

theorem xKeyPoints_eq {chart : BarChart} (h : chart.slots ≤ 2 ^ 32) :
    chart.xKeyPoints = (List.range chart.slots).map ofNat := by
  have hsame : |chart.axisDecade - chart.axisDecade| ≤ 1 := by simp
  exact (points_axis h hsame).1

theorem slots_lt {chart : BarChart} (h : chart.bars.length < 2 ^ 63) : chart.slots < 2 ^ 63 := by
  unfold slots
  omega

theorem search_axis {chart : BarChart} (h : chart.bars.length < 2 ^ 63) {decade : Int}
    (hdecade : |decade - chart.axisDecade| ≤ 1) :
    Search (-oneHalf) chart.axisEnd chart.slots
      (searchStart (-oneHalf) chart.axisEnd chart.slots decade).1
      (searchStart (-oneHalf) chart.axisEnd chart.slots decade).2
      (fractionalStep (-oneHalf) chart.axisEnd chart.slots decade) := by
  have hslots : 1 ≤ chart.slots := le_max_left _ _
  have hslots' := slots_lt h
  obtain ⟨hlow, hhigh, _⟩ := axisDecade_bounds chart hslots'
  rw [abs_le] at hdecade
  have hdecade' : -1 ≤ decade := by omega
  obtain ⟨k, hk, hstart⟩ := searchStart_atDecade hslots hslots' hdecade' (by omega)
  obtain ⟨result, hsearch, hfuel, _⟩ := search_of_atDecade hstart (by omega) hslots hslots'
  rw [fractionalStep_eq]
  unfold axisEnd
  rw [hfuel 22 (by omega)]
  exact hsearch

/-- The ticks of a chart are at the places of its bars and have their labels, even if the power of
ten of the axis is found one too low or one too high. There are no others: the loop over them ends
by its own test, and a counter with more room would not change them. The search for their step ends
for as many bars as there can be in memory, and a chart without bars has one tick without a label.
-/
theorem ticks_are_bars (chart : BarChart) :
    (chart.bars ≠ [] → chart.bars.length ≤ 2 ^ 32 →
      chart.xKeyPoints = (List.range chart.bars.length).map ofNat ∧
      chart.xKeyPoints.map toRat = (List.range chart.bars.length).map (fun k : Nat => (k : Rat)) ∧
      chart.xKeyPoints.map chart.labelAt = chart.bars.map (·.label)) ∧
    (chart.bars.length ≤ 2 ^ 32 → ∀ decade : Int, |decade - chart.axisDecade| ≤ 1 →
      fractionalIn (-oneHalf) chart.axisEnd chart.slots decade = chart.xKeyPoints ∧
      (∀ points, Finds (-oneHalf) chart.axisEnd chart.slots decade points ↔
        points = chart.xKeyPoints) ∧
      ∀ count, chart.slots ≤ count →
        pointsIn (-oneHalf) chart.axisEnd
            (fractionalStep (-oneHalf) chart.axisEnd chart.slots decade).1
            (fractionalStep (-oneHalf) chart.axisEnd chart.slots decade).2 count =
          chart.xKeyPoints) ∧
    (chart.bars.length < 2 ^ 63 → ∀ decade : Int, |decade - chart.axisDecade| ≤ 1 →
      Search (-oneHalf) chart.axisEnd chart.slots
        (searchStart (-oneHalf) chart.axisEnd chart.slots decade).1
        (searchStart (-oneHalf) chart.axisEnd chart.slots decade).2
        (fractionalStep (-oneHalf) chart.axisEnd chart.slots decade)) ∧
    (chart.bars = [] → chart.xKeyPoints = [ofNat 0] ∧ chart.labelAt (ofNat 0) = "") ∧
    (∀ samples, chart = ofSamples samples →
      chart.bars.map (·.label) = samples.map fun sample => toString sample.insertSize.toNat) := by
  refine ⟨?_, ?_, fun hmany decade hdecade => search_axis hmany hdecade, ?_,
    fun samples hsamples => hsamples ▸ labels_ofSamples samples⟩
  · intro hbars hsmall
    have hslots := slots_of_ne_nil hbars
    have hkey := xKeyPoints_eq (hslots ▸ hsmall : chart.slots ≤ 2 ^ 32)
    refine ⟨hslots ▸ hkey, ?_, ?_⟩
    · rw [hkey, hslots, List.map_map]
      apply List.map_congr_left
      intro k hk
      rw [List.mem_range] at hk
      exact (ofNat_hasValue (by simp only [significands]; omega)).value
    · rw [hkey, hslots]
      exact map_labelAt chart (by omega)
  · intro hsmall decade hdecade
    have hslots : chart.slots ≤ 2 ^ 32 := by
      unfold slots
      omega
    rw [xKeyPoints_eq hslots]
    obtain ⟨hpoints, hfinds, hroom⟩ := points_axis hslots hdecade
    refine ⟨hpoints, fun points => ⟨fun h => h.unique hfinds, ?_⟩, hroom⟩
    rintro rfl
    exact hfinds
  · intro hempty
    have hone : chart.slots = 1 := by
      unfold slots
      rw [hempty]
      rfl
    refine ⟨?_, ?_⟩
    · rw [xKeyPoints_eq (by omega), hone]
      rfl
    · rw [labelAt_ofNat chart (by decide), hempty]
      rfl

/-- A chart with two bars of the same size and another one between them. -/
def repeated : BarChart := ofSamples [⟨300, 2⟩, ⟨100, 7⟩, ⟨300, 5⟩]

/-- Its axis is less than ten long, and a search that starts from ten finds the same three ticks. -/
theorem ticks_of_repeated :
    repeated.bars ≠ [] ∧ repeated.bars.length ≤ 2 ^ 32 ∧ repeated.bars.length < 2 ^ 63 ∧
      repeated.xKeyPoints.map repeated.labelAt = ["300", "100", "300"] ∧
      repeated.axisDecade = 0 ∧
      (∀ points, Finds (-oneHalf) repeated.axisEnd repeated.slots 1 points ↔
        points = [ofNat 0, ofNat 1, ofNat 2]) ∧
      pointsIn (-oneHalf) repeated.axisEnd
          (fractionalStep (-oneHalf) repeated.axisEnd repeated.slots 1).1
          (fractionalStep (-oneHalf) repeated.axisEnd repeated.slots 1).2 1000 =
        [ofNat 0, ofNat 1, ofNat 2] ∧
      Search (-oneHalf) repeated.axisEnd repeated.slots
        (searchStart (-oneHalf) repeated.axisEnd repeated.slots 1).1
        (searchStart (-oneHalf) repeated.axisEnd repeated.slots 1).2
        (fractionalStep (-oneHalf) repeated.axisEnd repeated.slots 1) := by
  have hne : repeated.bars ≠ [] := by decide
  have hlength : repeated.bars.length ≤ 2 ^ 32 := by decide
  have hmany : repeated.bars.length < 2 ^ 63 := by decide
  have hdecade : repeated.axisDecade = 0 := by decide +kernel
  have hnear : |1 - repeated.axisDecade| ≤ 1 := by
    rw [hdecade]
    decide
  obtain ⟨hbars, hloops, hsearch, _⟩ := ticks_are_bars repeated
  obtain ⟨hkey, _, hlabels⟩ := hbars hne hlength
  obtain ⟨_, hfinds, hroom⟩ := hloops hlength 1 hnear
  have hthree : (List.range repeated.bars.length).map ofNat = [ofNat 0, ofNat 1, ofNat 2] := rfl
  rw [hkey, hthree] at hfinds hroom
  refine ⟨hne, hlength, hmany, ?_, hdecade, hfinds, hroom 1000 (by decide),
    hsearch hmany 1 hnear⟩
  rw [hlabels]
  decide +kernel

end RehashChart.BarChart
