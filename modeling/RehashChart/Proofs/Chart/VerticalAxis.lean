import RehashChart.Proofs.Binary64.Arithmetic
import RehashChart.Proofs.Chart.Bars

/-! # The end of the vertical axis

The factor is one part in `2 ^ 54` larger than a twentieth, so each multiple of twenty is at risk to
get one more than its due. Up to `2 ^ 53` the rounding of the product takes back what the factor has
too much; beyond that the axis still keeps the order of the heights.
-/

namespace RehashChart.BarChart

open Binary64

/-! ## Headroom -/

def spare (t : Nat) : Nat := (ofNat t * headroom).ceil.toNat64

theorem yMax_eq (chart : BarChart) :
    chart.yMax = max 1 (min maxHeight (chart.tallest + spare chart.tallest)) :=
  rfl

theorem yMax_bounds (chart : BarChart) : 1 ≤ chart.yMax ∧ chart.yMax < 2 ^ 64 := by
  rw [yMax_eq]
  simp only [maxHeight, UInt64.size]
  omega

theorem height_le_yMax {chart : BarChart} {bar : Bar} (hbar : bar ∈ chart.bars) :
    bar.height.toNat ≤ chart.yMax := by
  have htallest := height_le_tallest hbar
  have hsize : chart.tallest < 2 ^ 64 := chart.tallest_lt
  rw [yMax_eq]
  simp only [maxHeight, UInt64.size]
  omega

/-- Heights are numbers of 64 bits, so they are finite, though not all of them are exact. -/
theorem exists_ofNat {n : Nat} (hn : n < 2 ^ 64) :
    ∃ r, (ofNat n).HasValue r ∧ 0 ≤ r ∧ r ≤ 2 ^ 64 ∧ (1 ≤ n → 1 ≤ r) := by
  have hnr : (n : Rat) ≤ 2 ^ 64 := by exact_mod_cast hn.le
  have hhigh := representable_two_pow (k := 64) (by decide)
  obtain ⟨r, hr, hr₀, hr₁⟩ := ofRat_between false representable_zero hhigh (by positivity) hnr
  rw [← ofNat_eq_ofRat] at hr
  refine ⟨r, hr, hr₀, hr₁, fun hpos => ?_⟩
  have hone : (1 : Rat) ≤ n := by exact_mod_cast hpos
  exact (roundsTo_self one_hasValue.representable).mono (roundsTo_of_ofNat hr) hone

/-- The number nearest to a twentieth is larger than that by one part in `2 ^ 54`. -/
theorem headroom_hasValue : headroom.HasValue (1 / 20 + 1 / 20 / 2 ^ 54) :=
  ⟨by decide +kernel, by decide +kernel⟩

theorem exists_product {t : Nat} (ht : t < 2 ^ 64) :
    ∃ a r, (ofNat t).HasValue a ∧ (ofNat t * headroom).HasValue r ∧ 0 ≤ r ∧ (1 ≤ t → 0 < r) := by
  obtain ⟨a, ha, ha₀, ha₁, hone⟩ := exists_ofNat ht
  obtain ⟨r, hr, hr₀, _⟩ := ha.mul_between headroom_hasValue representable_zero
    (representable_two_pow (k := 64) (by decide)) (by positivity) (by linarith)
  refine ⟨a, r, ha, hr, hr₀, fun hpos => ?_⟩
  have hleast := representable_one_div_two_pow (k := 5) (by decide)
  have ha' := hone hpos
  have hr' := (roundsTo_self hleast).mono (ha.mul_rounds headroom_hasValue hr) (by linarith)
  linarith

theorem spare_eq {t : Nat} {r : Rat} (hr : (ofNat t * headroom).HasValue r) (hr₀ : 0 ≤ r) :
    spare t = min (UInt64.size - 1) r.ceil.toNat := by
  have hceil : (0 : Rat) ≤ r.ceil := hr₀.trans Rat.le_ceil
  rw [spare, hr.ceil.toNat64_eq hceil, Rat.floor_intCast]

theorem spare_mono {t t' : Nat} (h : t ≤ t') (ht' : t' < 2 ^ 64) : spare t ≤ spare t' := by
  obtain ⟨a, r, ha, hr, hr₀, _⟩ := exists_product (h.trans_lt ht')
  obtain ⟨a', r', ha', hr', hr₀', _⟩ := exists_product ht'
  have hfactors : a ≤ a' :=
    (roundsTo_of_ofNat ha).mono (roundsTo_of_ofNat ha') (by exact_mod_cast h)
  have hproducts : r ≤ r' :=
    (ha.mul_rounds headroom_hasValue hr).mono (ha'.mul_rounds headroom_hasValue hr')
      (mul_le_mul_of_nonneg_right hfactors (by positivity))
  have hceil : r.ceil ≤ r'.ceil := Rat.ceil_le_iff.mpr (hproducts.trans Rat.le_ceil)
  rw [spare_eq hr hr₀, spare_eq hr' hr₀']
  omega

theorem spare_pos {t : Nat} (h : 1 ≤ t) (ht : t < 2 ^ 64) : 1 ≤ spare t := by
  obtain ⟨_, r, _, hr, hr₀, hpos⟩ := exists_product ht
  have hceil : 0 < r.ceil := Rat.lt_ceil_iff.mpr (by exact_mod_cast hpos h)
  rw [spare_eq hr hr₀]
  simp only [UInt64.size]
  omega

/-! ## Exactness -/

theorem ofNat_exact {n : Nat} (h : n ≤ 2 ^ 53) : (ofNat n).HasValue n := by
  rcases h.lt_or_eq with hless | rfl
  · exact ofNat_hasValue hless
  · exact ofNat_of_representable (by exact_mod_cast representable_two_pow (k := 53) (by decide))

/-- The product of the factor and an exact height is rounded up to where a twentieth of the height
is rounded up to. -/
theorem ceil_product {t : Nat} {r : Rat} (ht : t ≤ 2 ^ 53)
    (hr : RoundsTo (t * (1 / 20 + 1 / 20 / 2 ^ 54)) r) : r.ceil = ((t : Rat) / 20).ceil := by
  obtain ⟨q, d, hd, rfl⟩ : ∃ q d, d < 20 ∧ t = 20 * q + d :=
    ⟨t / 20, t % 20, Nat.mod_lt t (by decide), (Nat.div_add_mod t 20).symm⟩
  have hq : q < significands := by simp only [significands]; omega
  have htr : (20 * q + d : Rat) ≤ 2 ^ 53 := by exact_mod_cast ht
  push_cast at hr ⊢
  rcases Nat.eq_zero_or_pos d with rfl | hpos
  · -- a multiple of twenty: what the factor has too much is less than the last bit of the quotient
    have hsplit : (20 * q + (0 : Nat) : Rat) * (1 / 20 + 1 / 20 / 2 ^ 54) = q + q / 2 ^ 54 := by
      push_cast
      ring
    rw [hsplit] at hr
    have hexact : r = q := by
      rcases Nat.eq_zero_or_pos q with rfl | hq₀
      · rw [Nat.cast_zero, zero_div, add_zero] at hr
        exact_mod_cast hr.exact representable_zero
      · have hq₁ : (0 : Rat) < q := by exact_mod_cast hq₀
        exact hr.absorb (representable_natCast hq) hq₁ (by linarith) (le_refl _)
    rw [hexact]
    congr 1
    push_cast
    ring
  · -- otherwise both are above the quotient and not above the next integer
    have hd₁ : (1 : Rat) ≤ d := by exact_mod_cast hpos
    have hd₂ : (d : Rat) ≤ 19 := by exact_mod_cast Nat.le_of_lt_succ hd
    have hlarge : (2 : Rat) ^ (-1022 : Int) ≤ (20 * q + d) * (1 / 20 + 1 / 20 / 2 ^ 54) := by
      refine two_zpow_le ?_
      have hq₀ : (0 : Rat) ≤ q := by positivity
      linarith
    have herror := abs_le.mp (hr.error hlarge)
    have hnext : r ≤ (q + 1 : Nat) :=
      hr.mono (roundsTo_self (representable_natCast (by simp only [significands]; omega)))
        (by push_cast; linarith)
    push_cast at hnext
    have hceil : r.ceil = q + 1 :=
      ceil_eq_of_between (by push_cast; linarith) (by push_cast; exact hnext)
    rw [hceil]
    exact (ceil_eq_of_between (by push_cast; linarith) (by push_cast; linarith)).symm

theorem ceil_twentieth_bounds (t : Nat) :
    0 ≤ ((t : Rat) / 20).ceil ∧ ((t : Rat) / 20).ceil ≤ t := by
  have hpos : (0 : Rat) ≤ t := by positivity
  have hlow : -1 < ((t : Rat) / 20).ceil := Rat.lt_ceil_iff.mpr (by push_cast; linarith)
  have hhigh : ((t : Rat) / 20).ceil ≤ t := Rat.ceil_le_iff.mpr (by push_cast; linarith)
  omega

theorem spare_exact {t : Nat} (ht : t ≤ 2 ^ 53) :
    (ofNat t * headroom).ceil.HasValue (((t : Rat) / 20).ceil : Int) ∧
      (spare t : Int) = ((t : Rat) / 20).ceil := by
  obtain ⟨a, r, ha, hr, hr₀, _⟩ := exists_product (by omega : t < 2 ^ 64)
  have hrounds := ha.mul_rounds headroom_hasValue hr
  rw [ha.unique (ofNat_exact ht)] at hrounds
  have hceil := ceil_product ht hrounds
  have hbounds := ceil_twentieth_bounds t
  refine ⟨hceil ▸ hr.ceil, ?_⟩
  rw [spare_eq hr hr₀, hceil]
  simp only [UInt64.size]
  omega

/-! ## The end of the axis -/

theorem yMax_mono {chart chart' : BarChart} (h : chart.tallest ≤ chart'.tallest) :
    chart.yMax ≤ chart'.yMax := by
  have hspare := spare_mono h chart'.tallest_lt
  rw [yMax_eq, yMax_eq]
  omega

/-- The vertical axis ends one twentieth above the tallest bar, rounded up, and the computation of
that makes no error up to heights of `2 ^ 53`. For every height the axis ends above the bar if there
is a greater number of 64 bits, and never below it. The end does not get lower with more rows, and
depends neither on their order nor on their sizes. -/
theorem headroom_above_tallest (chart : BarChart) :
    ((chart.bars = [] → chart.tallest = 0) ∧
      (chart.bars ≠ [] → ∃ bar ∈ chart.bars, bar.height.toNat = chart.tallest) ∧
      ∀ bar ∈ chart.bars, bar.height.toNat ≤ chart.tallest) ∧
    (chart.tallest ≤ 2 ^ 53 →
      (ofNat chart.tallest * headroom).ceil.HasValue (((chart.tallest : Rat) / 20).ceil : Int) ∧
      (chart.yMax : Int) = max 1 (chart.tallest + ((chart.tallest : Rat) / 20).ceil)) ∧
    (1 ≤ chart.yMax ∧ chart.tallest ≤ chart.yMax ∧ chart.yMax ≤ 2 ^ 64 - 1 ∧
      (chart.tallest ≠ 2 ^ 64 - 1 → chart.tallest < chart.yMax)) ∧
    (∀ chart' : BarChart, chart.tallest ≤ chart'.tallest → chart.yMax ≤ chart'.yMax) ∧
    ∀ samples samples' : List Sample,
      (samples ⊆ samples' → (ofSamples samples).yMax ≤ (ofSamples samples').yMax) ∧
      ((samples.map (·.rehashRounds)).Perm (samples'.map (·.rehashRounds)) →
        (ofSamples samples).yMax = (ofSamples samples').yMax) := by
  have hsize : chart.tallest < 2 ^ 64 := chart.tallest_lt
  obtain ⟨hone, hbelow⟩ := chart.yMax_bounds
  refine ⟨⟨?_, exists_tallest, fun bar => height_le_tallest⟩, ?_, ⟨hone, ?_, by omega, ?_⟩,
    fun _ => yMax_mono, ?_⟩
  · intro hempty
    rw [tallest, hempty]
    rfl
  · intro hexact
    obtain ⟨hvalue, hspare⟩ := spare_exact hexact
    have hbounds := ceil_twentieth_bounds chart.tallest
    refine ⟨hvalue, ?_⟩
    rw [yMax_eq]
    simp only [maxHeight, UInt64.size]
    omega
  · rw [yMax_eq]
    simp only [maxHeight, UInt64.size]
    omega
  · intro hless
    rw [yMax_eq]
    have hspare : 1 ≤ chart.tallest → 1 ≤ spare chart.tallest := fun h => spare_pos h hsize
    simp only [maxHeight, UInt64.size]
    omega
  · intro samples samples'
    refine ⟨fun h => yMax_mono (tallest_le_of_subset (List.map_subset _ h)), fun h => ?_⟩
    exact le_antisymm (yMax_mono (tallest_le_of_subset h.subset))
      (yMax_mono (tallest_le_of_subset h.symm.subset))

/-- The greatest height for which every smaller one is exact. -/
def lastExact : BarChart := ofSamples [⟨1, 20⟩, ⟨2, 9007199254740992⟩]

theorem headroom_of_lastExact :
    lastExact.tallest ≤ 2 ^ 53 ∧ lastExact.yMax = 9007199254740992 + 450359962737050 := by
  have htallest : lastExact.tallest = 9007199254740992 := by decide +kernel
  have hexact : lastExact.tallest ≤ 2 ^ 53 := by rw [htallest]; decide
  obtain ⟨_, hend⟩ := (headroom_above_tallest lastExact).2.1 hexact
  have hceil : ((9007199254740992 : Nat) / 20 : Rat).ceil = 450359962737050 :=
    ceil_eq_of_between (by norm_num) (by norm_num)
  rw [htallest, hceil] at hend
  exact ⟨hexact, by exact_mod_cast hend⟩

end RehashChart.BarChart
