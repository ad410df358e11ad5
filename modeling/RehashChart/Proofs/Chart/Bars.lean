import Mathlib.Order.MinMax
import RehashChart.Chart.Bar

/-! # The bars of a chart

The rows of a table become bars one by one and in order. What the tallest of them is depends on
which heights there are only.
-/

namespace RehashChart.BarChart

/-! ## Rows and bars -/

theorem getElem?_ofSamples (samples : List Sample) (i : Nat) :
    (ofSamples samples).bars[i]? = samples[i]?.map fun sample =>
      ⟨i, toString sample.insertSize.toNat, sample.rehashRounds⟩ := by
  rw [ofSamples, List.getElem?_map, List.getElem?_zipIdx]
  cases samples[i]? with
  | none => rfl
  | some sample => simp

theorem length_ofSamples (samples : List Sample) :
    (ofSamples samples).bars.length = samples.length := by
  rw [ofSamples, List.length_map, List.length_zipIdx]

theorem slots_ofSamples (samples : List Sample) :
    (ofSamples samples).slots = max 1 samples.length := by
  rw [slots, length_ofSamples]

theorem position_of_getElem? {samples : List Sample} {i : Nat} {bar : Bar}
    (hbar : (ofSamples samples).bars[i]? = some bar) : bar.position = i := by
  rw [getElem?_ofSamples] at hbar
  obtain ⟨sample, _, rfl⟩ := Option.map_eq_some_iff.mp hbar
  rfl

theorem positions_ofSamples (samples : List Sample) :
    (ofSamples samples).bars.map Bar.position = List.range samples.length := by
  rw [ofSamples, List.map_map, List.range_eq_range', ← List.zipIdx_map_snd 0 samples]
  rfl

/-- The places of the bars are places that the horizontal axis has. -/
theorem position_lt_slots {samples : List Sample} {bar : Bar}
    (hbar : bar ∈ (ofSamples samples).bars) : bar.position < (ofSamples samples).slots := by
  obtain ⟨i, hi⟩ := List.mem_iff_getElem?.mp hbar
  rw [position_of_getElem? hi]
  exact lt_max_of_lt_right (List.getElem?_eq_some_iff.mp hi).1

theorem map_ofSamples {α : Type} {f : Bar → α} {g : Sample → α}
    (h : ∀ i sample, f ⟨i, toString sample.insertSize.toNat, sample.rehashRounds⟩ = g sample)
    (samples : List Sample) : (ofSamples samples).bars.map f = samples.map g := by
  apply List.ext_getElem?
  intro i
  rw [List.getElem?_map, List.getElem?_map, getElem?_ofSamples, Option.map_map]
  exact congrArg (samples[i]?.map ·) (funext fun sample => h i sample)

theorem labels_ofSamples (samples : List Sample) :
    (ofSamples samples).bars.map (·.label) =
      samples.map fun sample => toString sample.insertSize.toNat :=
  map_ofSamples (fun _ _ => rfl) samples

theorem heights_ofSamples (samples : List Sample) :
    (ofSamples samples).bars.map (·.height) = samples.map (·.rehashRounds) :=
  map_ofSamples (fun _ _ => rfl) samples

/-! ## The tallest bar -/

theorem foldl_height_le_iff (bars : List Bar) (start n : Nat) :
    bars.foldl (fun height bar => max height bar.height.toNat) start ≤ n ↔
      start ≤ n ∧ ∀ bar ∈ bars, bar.height.toNat ≤ n := by
  induction bars generalizing start with
  | nil => simp
  | cons bar bars ih => rw [List.foldl_cons, ih, max_le_iff, List.forall_mem_cons, and_assoc]

theorem tallest_le_iff {chart : BarChart} {n : Nat} :
    chart.tallest ≤ n ↔ ∀ bar ∈ chart.bars, bar.height.toNat ≤ n := by
  rw [tallest, foldl_height_le_iff]
  exact and_iff_right (Nat.zero_le n)

theorem height_le_tallest {chart : BarChart} {bar : Bar} (hbar : bar ∈ chart.bars) :
    bar.height.toNat ≤ chart.tallest :=
  tallest_le_iff.mp (le_refl chart.tallest) bar hbar

theorem tallest_lt (chart : BarChart) : chart.tallest < UInt64.size := by
  have hle : chart.tallest ≤ UInt64.size - 1 :=
    tallest_le_iff.mpr fun bar _ => Nat.le_sub_one_of_lt bar.height.toNat_lt
  exact Nat.lt_of_le_sub_one (by decide) hle

theorem exists_tallest {chart : BarChart} (h : chart.bars ≠ []) :
    ∃ bar ∈ chart.bars, bar.height.toNat = chart.tallest := by
  by_contra hnone
  have hless : ∀ bar ∈ chart.bars, bar.height.toNat < chart.tallest := fun bar hbar =>
    lt_of_le_of_ne (height_le_tallest hbar) fun heq => hnone ⟨bar, hbar, heq⟩
  obtain ⟨bar, hbar⟩ := List.exists_mem_of_ne_nil _ h
  have hpos := hless bar hbar
  have hle : chart.tallest ≤ chart.tallest - 1 :=
    tallest_le_iff.mpr fun bar hbar => Nat.le_sub_one_of_lt (hless bar hbar)
  omega

/-- More rows do not make the tallest bar smaller, wherever they are added. -/
theorem tallest_le_of_subset {samples samples' : List Sample}
    (h : samples.map (·.rehashRounds) ⊆ samples'.map (·.rehashRounds)) :
    (ofSamples samples).tallest ≤ (ofSamples samples').tallest := by
  rw [tallest_le_iff]
  intro bar hbar
  have hrounds := List.mem_map_of_mem (f := (·.height)) hbar
  rw [heights_ofSamples] at hrounds
  have hrounds' := h hrounds
  rw [← heights_ofSamples] at hrounds'
  obtain ⟨bar', hbar', heq⟩ := List.mem_map.mp hrounds'
  rw [← heq]
  exact height_le_tallest hbar'

end RehashChart.BarChart
