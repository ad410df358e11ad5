import RehashChart.Proofs.Chart.Corners
import RehashChart.Proofs.Chart.Ticks

/-! # The range of the ticks

With more bars than there are exact integers the ticks are not at the places of the bars any more.
Every number on the way to them is at most so many times as large as the length of the axis, so
their columns are still small integers.
-/

namespace RehashChart

open Binary64 BarChart

namespace KeyPoints

/-! ## Numbers of a size -/

/-- A number that is at most `c` units of `2 ^ m` large. -/
def Within (m c : Nat) (x : Binary64) : Prop := ∃ r, x.HasValue r ∧ |r| ≤ c * 2 ^ m

theorem representable_units {m c : Nat} (hm : m ≤ 100) (hc : c < significands) :
    Representable (c * 2 ^ m) :=
  ⟨c, m, by simpa using hc, by omega, by omega, by rw [zpow_natCast, Int.cast_natCast]⟩

section Sizes

variable {m c d : Nat} {x y : Binary64}

theorem Within.mono (h : Within m c x) (hcd : c ≤ d) : Within m d x := by
  obtain ⟨r, hr, hsize⟩ := h
  have hcd' : (c : Rat) ≤ d := by exact_mod_cast hcd
  exact ⟨r, hr, hsize.trans (by gcongr)⟩

theorem Within.add (hx : Within m c x) (hy : Within m d y) (hm : m ≤ 100)
    (hsum : c + d < significands) : Within m (c + d) (x + y) := by
  obtain ⟨p, hp, hpsize⟩ := hx
  obtain ⟨q, hq, hqsize⟩ := hy
  have hbound := representable_units hm hsum
  rw [abs_le] at hpsize hqsize
  push_cast at hbound
  obtain ⟨r, hr, hlow, hhigh⟩ := hp.add_between hq (representable_neg hbound) hbound (by linarith)
    (by linarith)
  refine ⟨r, hr, abs_le.mpr ?_⟩
  push_cast
  exact ⟨hlow, hhigh⟩

theorem Within.neg (hx : Within m c x) : Within m c (-x) := by
  obtain ⟨p, hp, hpsize⟩ := hx
  exact ⟨-p, hp.neg, by rwa [abs_neg]⟩

theorem Within.sub (hx : Within m c x) (hy : Within m d y) (hm : m ≤ 100)
    (hsum : c + d < significands) : Within m (c + d) (x - y) :=
  hx.add hy.neg hm hsum

structure IsStep (m d : Nat) (x : Binary64) (s : Rat) : Prop where
  value : x.HasValue s
  least : 1 / 16 ≤ s
  most : s ≤ d * 2 ^ m

theorem IsStep.within {s : Rat} (h : IsStep m d x s) : Within m d x :=
  ⟨s, h.value, by rw [abs_of_nonneg (by linarith [h.least])]; exact h.most⟩

theorem abs_floor_le (t : Rat) : |(t.floor : Rat)| ≤ |t| + 1 := by
  have hlow := Rat.floor_le t
  have hhigh := Rat.lt_floor_add_one t
  have ht₁ := neg_abs_le t
  have ht₂ := le_abs_self t
  push_cast at hhigh
  rw [abs_le]
  constructor <;> linarith

/-- A rounded quotient leads back to a number that is not much larger. -/
theorem abs_quotient_mul_le {p s t : Rat} (hs : 0 < s) (h : RoundsTo (p / s) t) :
    |t| * s ≤ 2 * |p| + s := by
  have hsize : |t| ≤ |p / s| + (|p / s| / 2 ^ 53 + 1 / 2 ^ 64) := by
    have hnear := h.near
    have hsplit := abs_sub_abs_le_abs_sub t (p / s)
    linarith
  have hexact : |p / s| * s = |p| := by rw [abs_div, abs_of_pos hs, div_mul_cancel₀ _ hs.ne']
  have hpos : 0 ≤ |p| := abs_nonneg p
  calc |t| * s ≤ (|p / s| + (|p / s| / 2 ^ 53 + 1 / 2 ^ 64)) * s := by gcongr
    _ = |p / s| * s + (|p / s| * s / 2 ^ 53 + s / 2 ^ 64) := by ring
    _ = |p| + (|p| / 2 ^ 53 + s / 2 ^ 64) := by rw [hexact]
    _ ≤ 2 * |p| + s := by linarith

/-- The multiple of a step below a number is not much larger than the two. -/
theorem Within.multiple {s : Rat} (hx : Within m c x) (hy : IsStep m d y s) (hm : m ≤ 100)
    (hc : c ≤ 2 ^ 20) (hd : d ≤ 2 ^ 20) : Within m (2 * c + 2 * d) ((x / y).floor * y) := by
  obtain ⟨p, hp, hpsize⟩ := hx
  obtain ⟨hs, hleast, hmost⟩ := hy
  have hs₀ : 0 < s := by linarith
  have hquotient : |p / s| ≤ ((16 * c : Nat) : Rat) * 2 ^ m := by
    rw [abs_div, abs_of_pos hs₀, div_le_iff₀ hs₀]
    push_cast
    have hunits : (0 : Rat) ≤ c * 2 ^ m := by positivity
    nlinarith
  have hbound := representable_units (c := 16 * c) hm (by simp only [significands]; omega)
  obtain ⟨t, ht, _, _⟩ := hp.div_between hs hs₀.ne' (representable_neg hbound) hbound
    (abs_le.mp hquotient).1 (abs_le.mp hquotient).2
  have htsize := abs_quotient_mul_le hs₀ (hp.div_rounds hs hs₀.ne' ht)
  have hproduct : |(t.floor : Rat) * s| ≤ ((2 * c + 2 * d : Nat) : Rat) * 2 ^ m := by
    rw [abs_mul, abs_of_pos hs₀]
    push_cast
    calc |(t.floor : Rat)| * s ≤ (|t| + 1) * s := by
          gcongr
          exact abs_floor_le t
      _ = |t| * s + s := by ring
      _ ≤ 2 * (c * 2 ^ m) + 2 * (d * 2 ^ m) := by linarith
      _ = (2 * c + 2 * d) * 2 ^ m := by ring
  have hlarge := representable_units (c := 2 * c + 2 * d) hm (by simp only [significands]; omega)
  obtain ⟨r, hr, hlow, hhigh⟩ := ht.floor.mul_between hs (representable_neg hlarge) hlarge
    (abs_le.mp hproduct).1 (abs_le.mp hproduct).2
  exact ⟨r, hr, abs_le.mpr ⟨hlow, hhigh⟩⟩

theorem Within.remainder {s : Rat} (hx : Within m c x) (hy : IsStep m d y s) (hm : m ≤ 100)
    (hc : c ≤ 2 ^ 20) (hd : d ≤ 2 ^ 20) :
    Within m (c + (2 * c + 2 * d)) (KeyPoints.remainder x y) := by
  unfold KeyPoints.remainder
  dsimp only
  split
  · exact ⟨0, zero_hasValue, by rw [abs_zero]; positivity⟩
  · exact hx.sub (hx.multiple hy hm hc hd) hm (by simp only [significands]; omega)

theorem Within.lastMultiple {s : Rat} (hx : Within m c x) (hy : IsStep m d y s) (hm : m ≤ 100)
    (hc : c ≤ 2 ^ 20) (hd : d ≤ 2 ^ 20) :
    Within m (c + (c + (2 * c + 2 * d))) (KeyPoints.lastMultiple x y) :=
  hx.sub (hx.remainder hy hm hc hd) hm (by simp only [significands]; omega)

theorem Within.firstMultiple {s : Rat} (hx : Within m c x) (hy : IsStep m d y s) (hm : m ≤ 100)
    (hc : c ≤ 2 ^ 20) (hd : d ≤ 2 ^ 20) :
    Within m (c + (c + (2 * c + 2 * d)) + d) (KeyPoints.firstMultiple x y) := by
  have hlast := hx.lastMultiple hy hm hc hd
  unfold KeyPoints.firstMultiple
  dsimp only
  split
  · exact hlast.add hy.within hm (by simp only [significands]; omega)
  · exact hlast.mono (by omega)

end Sizes

/-! ## Steps and grains -/

section Search

variable {k n m : Nat} {lo hi step grain shorter : Binary64} {limit : Nat}
variable {result : Binary64 × Binary64}

theorem AtDecade.exists_grain (h : AtDecade k step grain) :
    ∃ g, grain.HasValue g ∧ 1 / 16 ≤ g ∧ g ≤ (10 ^ k : Nat) := by
  cases k with
  | zero =>
      obtain ⟨t, ht, hlow, hhigh⟩ := exists_tenth
      rw [h.first rfl]
      exact ⟨t, ht, hlow, hhigh.trans (by norm_num)⟩
  | succ k =>
      have hone : (1 : Rat) ≤ (10 ^ k : Nat) := by exact_mod_cast Nat.one_le_pow k 10 (by decide)
      have hmore : ((10 ^ k : Nat) : Rat) ≤ (10 ^ (k + 1) : Nat) := by
        exact_mod_cast Nat.pow_le_pow_right (by decide) (Nat.le_succ k)
      exact ⟨_, h.later k rfl, by linarith, hmore⟩

/-- Where the search stops, the step is a power of ten, half of it or a fifth of it. -/
theorem exists_shorter (hstep : step.HasValue (10 ^ k : Nat)) (hk : k ≤ 22)
    (hstop : shortenBy lo hi limit step [2, 5, 10] step = (shorter, false)) :
    ∃ s, shorter.HasValue s ∧ 1 / 16 ≤ s ∧ s ≤ (10 ^ k : Nat) := by
  have hone : (1 : Rat) ≤ (10 ^ k : Nat) := by exact_mod_cast Nat.one_le_pow k 10 (by decide)
  have hpart : ∀ p : Nat, 1 ≤ p → p ≤ 10 → ∃ s, (step / ofNat p).HasValue s ∧ 1 / 16 ≤ s ∧
      s ≤ (10 ^ k : Nat) := by
    intro p hp hp'
    have hpr : (1 : Rat) ≤ p := by exact_mod_cast hp
    have hpr' : (p : Rat) ≤ 10 := by exact_mod_cast hp'
    refine hstep.div_between (part_hasValue p hp') (by linarith)
      (representable_one_div_two_pow (k := 4) (by decide)) (representable_power hk) ?_ ?_ |>.imp ?_
    · rw [le_div_iff₀ (by linarith)]
      linarith
    · rw [div_le_iff₀ (by linarith)]
      nlinarith
    · rintro s ⟨hs, hlow, hhigh⟩
      exact ⟨hs, by linarith, hhigh⟩
  simp only [shortenBy] at hstop
  split at hstop
  · obtain ⟨rfl, -⟩ := Prod.mk.inj hstop
    exact ⟨_, hstep, by linarith, le_refl _⟩
  · split at hstop
    · obtain ⟨rfl, -⟩ := Prod.mk.inj hstop
      exact hpart 2 (by decide) (by decide)
    · split at hstop
      · obtain ⟨rfl, -⟩ := Prod.mk.inj hstop
        exact hpart 5 (by decide) (by decide)
      · exact absurd (Prod.mk.inj hstop).2 (by decide)

/-- The search ends with a step and a grain between a sixteenth and the step that it began with. -/
theorem Search.exists_step (h : Search (-oneHalf) (ofNat n - oneHalf) n step grain result)
    (hn : 1 ≤ n) (hn' : n < 2 ^ 63) (hat : AtDecade k step grain) (hk : k ≤ 22) :
    (∃ s, result.1.HasValue s ∧ 1 / 16 ≤ s ∧ s ≤ (10 ^ k : Nat)) ∧
      ∃ g, result.2.HasValue g ∧ 1 / 16 ≤ g ∧ g ≤ (10 ^ k : Nat) := by
  induction h generalizing k with
  | stop hstop => exact ⟨exists_shorter hat.step hk hstop, hat.exists_grain⟩
  | next hnext _ ih =>
      cases k with
      | zero =>
          -- below one the search does not go on
          rw [shortenBy_one hat.step hn hn'] at hnext
          exact absurd (Prod.mk.inj hnext).2 (by decide)
      | succ k =>
          have hmore : ((10 ^ k : Nat) : Rat) ≤ (10 ^ (k + 1) : Nat) := by
            exact_mod_cast Nat.pow_le_pow_right (by decide) (Nat.le_succ k)
          obtain ⟨⟨s, hs, hs₀, hs₁⟩, g, hg, hg₀, hg₁⟩ := ih (hat.down (by omega)) (by omega)
          exact ⟨⟨s, hs, hs₀, hs₁.trans hmore⟩, g, hg, hg₀, hg₁.trans hmore⟩

theorem ten_pow_decadeOf_le (x : Binary64) :
    10 ^ (decadeOf x).toNat ≤ max 1 x.toNat64 := by
  have hdecade : (decadeOf x).toNat = (Nat.toDigits 10 x.toNat64).length - 1 := by
    unfold decadeOf
    omega
  rw [hdecade]
  rcases Nat.eq_zero_or_pos ((Nat.toDigits 10 x.toNat64).length - 1) with hzero | hpos
  · rw [hzero]
    exact le_max_left _ _
  · refine le_max_of_le_right (not_lt.mp fun hless => ?_)
    have hlength := (Nat.length_toDigits_le_iff (by decide) hpos).mpr hless
    omega

end Search

/-! ## The walk -/

section Walk

variable {m : Nat} {base last step grain relative : Binary64} {s g r : Rat}

theorem le_of_not_beyond (hm : m ≤ 100) (hbase : Within m 1024 base) (hlast : Within m 256 last)
    (hr : relative.HasValue r) (hhigh : r ≤ 8192 * 2 ^ m)
    (hle : Binary64.le (-epsilon) (last - relative - base) = true) : r ≤ 4096 * 2 ^ m := by
  by_contra hfar
  obtain ⟨b, hb, hbsize⟩ := hbase
  obtain ⟨l, hl, hlsize⟩ := hlast
  have hunit : (1 : Rat) ≤ 2 ^ m := one_le_pow₀ one_le_two
  rw [abs_le] at hbsize hlsize
  push_cast at hbsize hlsize
  have hlow := representable_neg (representable_units (m := m) (c := 16384) hm (by decide))
  have hmiddle := representable_neg (representable_units (m := m) (c := 3840) hm (by decide))
  have hnegative := representable_neg (representable_units (m := m) (c := 2816) hm (by decide))
  push_cast at hlow hmiddle hnegative
  obtain ⟨d, hd, hdlow, hdhigh⟩ := hl.add_between hr.neg hlow hmiddle (by linarith) (by linarith)
  have hlow' := representable_neg (representable_units (m := m) (c := 32768) hm (by decide))
  push_cast at hlow'
  obtain ⟨u, hu, _, huhigh⟩ := hd.add_between hb.neg hlow' hnegative (by linarith) (by linarith)
  have hcompare := epsilon_hasValue.neg.le_eq hu
  have hcompare' : Binary64.le (-epsilon) (last - relative - base) = _ := hcompare
  rw [hle] at hcompare'
  have hepsilon := of_decide_eq_true hcompare'.symm
  have hsmall : -(1 / 2 ^ 52 : Rat) > -1 := by norm_num
  linarith

theorem within_walk (hm : m ≤ 100) (hbase : Within m 1024 base) (hlast : Within m 256 last)
    (hstep : IsStep m 32 step s) (hgrain : IsStep m 32 grain g) (count : Nat)
    (hr : relative.HasValue r) (hlow : -(2048 * 2 ^ m) ≤ r) (hhigh : r ≤ 8192 * 2 ^ m) :
    ∀ v ∈ walk base last step grain count relative, Within m 8192 v := by
  induction count generalizing relative r with
  | zero =>
      intro v hv
      exact absurd hv List.not_mem_nil
  | succ count ih =>
      rw [walk]
      split
      · rename_i hle
        have hnear := le_of_not_beyond hm hbase hlast hr hhigh hle
        have hgrain₀ := hgrain.least
        have hgrain₁ := hgrain.most
        have hstep₀ := hstep.least
        have hstep₁ := hstep.most
        push_cast at hgrain₁ hstep₁
        -- a point is not left of where it comes from, and at most a grain right of it
        obtain ⟨h, hh, hhlow, hhhigh⟩ : ∃ h, (settled grain relative).HasValue h ∧ r ≤ h ∧
            h ≤ 4128 * 2 ^ m := by
          unfold settled
          have hbound := representable_units (m := m) (c := 4128) hm (by decide)
          push_cast at hbound
          split
          · exact hr.add_between hgrain.value hr.representable hbound (by linarith) (by linarith)
          · exact ⟨r, hr, le_refl r, by linarith⟩
        have hhere : Within m 4128 (settled grain relative) := by
          refine ⟨h, hh, abs_le.mpr ?_⟩
          push_cast
          constructor <;> linarith
        have hbound := representable_units (m := m) (c := 8192) hm (by decide)
        push_cast at hbound
        obtain ⟨t, ht, htlow, hthigh⟩ := hh.add_between hstep.value hh.representable hbound
          (by linarith) (by linarith)
        intro v hv
        rcases List.mem_cons.mp hv with rfl | hv
        · exact (hhere.add hbase hm (by decide)).mono (by decide)
        · exact ih ht (by linarith) hthigh v hv
      · intro v hv
        exact absurd hv List.not_mem_nil

end Walk

end KeyPoints

/-! ## Ticks -/

namespace BarChart

open KeyPoints

theorem oneHalf_within (m : Nat) : Within m 1 oneHalf :=
  ⟨1 / 2, oneHalf_hasValue, by
    have hunit : (1 : Rat) ≤ 2 ^ m := one_le_pow₀ one_le_two
    rw [abs_of_pos (by norm_num), Nat.cast_one]
    linarith⟩

/-- The end and the length of the axis, in units of the power of two at the number of places. -/
theorem exists_axis {n m : Nat} (hn : 2 ^ m ≤ n) (hn' : n < 2 ^ (m + 1)) (hm : m ≤ 62) :
    Within m 3 (ofNat n - oneHalf) ∧
      ∃ d, (ofNat n - oneHalf - -oneHalf).HasValue d ∧ 2 ^ m / 2 ≤ d ∧ d ≤ 3 * 2 ^ m := by
  have hnr : (2 : Rat) ^ m ≤ n := by exact_mod_cast hn
  have hnr' : (n : Rat) ≤ 2 * 2 ^ m := by
    rw [← pow_succ']
    exact_mod_cast hn'.le
  have hunit : (1 : Rat) ≤ 2 ^ m := one_le_pow₀ one_le_two
  have htwo := representable_units (m := m) (c := 2) (by omega) (by decide)
  push_cast at htwo
  obtain ⟨f, hf, hlow, hhigh⟩ := ofRat_between false (q := n) representable_zero htwo
    (by linarith) hnr'
  rw [← ofNat_eq_ofRat] at hf
  have hcount : Within m 2 (ofNat n) := ⟨f, hf, by
    rw [abs_of_nonneg hlow]
    exact_mod_cast hhigh⟩
  obtain ⟨d, hd, hnear⟩ := exists_axisLength (Nat.one_le_two_pow.trans hn) hf
  rw [abs_le] at hnear
  have hend := hcount.sub (oneHalf_within m) (by omega) (by decide)
  refine ⟨hend, d, hd, ?_, ?_⟩
  · linarith
  · linarith

variable {chart : BarChart}

def axisUnit (chart : BarChart) : Nat := chart.slots.log2

theorem axisUnit_bounds (h : chart.slots < 2 ^ 63) :
    2 ^ chart.axisUnit ≤ chart.slots ∧ chart.slots < 2 ^ (chart.axisUnit + 1) ∧
      chart.axisUnit ≤ 62 := by
  have hslots : chart.slots ≠ 0 := Nat.one_le_iff_ne_zero.mp (le_max_left _ _)
  refine ⟨Nat.log2_self_le hslots, Nat.lt_log2_self, ?_⟩
  exact Nat.le_of_lt_succ ((Nat.log2_lt hslots).mpr h)

theorem ten_pow_axisDecade_le (h : chart.slots < 2 ^ 63) :
    ((10 ^ chart.axisDecade.toNat : Nat) : Rat) ≤ 3 * 2 ^ chart.axisUnit := by
  obtain ⟨hunit, hunit', hsmall⟩ := axisUnit_bounds h
  obtain ⟨_, d, hd, hdlow, hdhigh⟩ := exists_axis hunit hunit' hsmall
  have hone : (1 : Rat) ≤ 2 ^ chart.axisUnit := one_le_pow₀ one_le_two
  have hcount := hd.toNat64_eq (by linarith)
  have hwhole : ((d.floor.toNat : Nat) : Rat) ≤ d := by
    have hnonneg : 0 ≤ d.floor := Rat.le_floor_iff.mpr (by push_cast; linarith)
    have hcast : ((d.floor.toNat : Nat) : Rat) = d.floor := by
      exact_mod_cast Int.toNat_of_nonneg hnonneg
    rw [hcast]
    exact Rat.floor_le d
  have hle : 10 ^ chart.axisDecade.toNat ≤ max 1 d.floor.toNat :=
    (ten_pow_decadeOf_le _).trans (max_le_max (le_refl 1) (hcount ▸ min_le_right _ _))
  have hle' : ((10 ^ chart.axisDecade.toNat : Nat) : Rat) ≤ max 1 (d.floor.toNat : Rat) := by
    exact_mod_cast hle
  exact hle'.trans (max_le (by linarith) (by linarith))

theorem exists_axisStep (h : chart.bars.length < 2 ^ 63) :
    (∃ s, IsStep chart.axisUnit 32
        (fractionalStep (-oneHalf) chart.axisEnd chart.slots chart.axisDecade).1 s) ∧
      ∃ g, IsStep chart.axisUnit 32
        (fractionalStep (-oneHalf) chart.axisEnd chart.slots chart.axisDecade).2 g := by
  have hslots : 1 ≤ chart.slots := le_max_left _ _
  have hslots' := slots_lt h
  obtain ⟨hlow, hhigh, _⟩ := axisDecade_bounds chart hslots'
  obtain ⟨k, hk, hstart⟩ := searchStart_atDecade hslots hslots' (by omega : -1 ≤ chart.axisDecade)
    (by omega)
  have hsame : |chart.axisDecade - chart.axisDecade| ≤ 1 := by simp
  have hsearch := search_axis h hsame
  have hpower : ((10 ^ k : Nat) : Rat) ≤ 32 * 2 ^ chart.axisUnit := by
    have hmore : 10 ^ k ≤ 10 * 10 ^ chart.axisDecade.toNat := by
      rw [← pow_succ']
      exact Nat.pow_le_pow_right (by decide) (by omega)
    have hmore' : ((10 ^ k : Nat) : Rat) ≤ 10 * (10 ^ chart.axisDecade.toNat : Nat) := by
      exact_mod_cast hmore
    have hunit : (0 : Rat) < 2 ^ chart.axisUnit := by positivity
    linarith [ten_pow_axisDecade_le hslots']
  obtain ⟨⟨s, hs, hs₀, hs₁⟩, g, hg, hg₀, hg₁⟩ :=
    hsearch.exists_step hslots hslots' hstart (by omega)
  exact ⟨⟨s, hs, hs₀, hs₁.trans (by exact_mod_cast hpower)⟩,
    g, hg, hg₀, hg₁.trans (by exact_mod_cast hpower)⟩

/-- The ticks of the axis are not far from it, even where they are not at the places of the bars. -/
theorem within_xKeyPoints (h : chart.bars.length < 2 ^ 63) :
    ∀ v ∈ chart.xKeyPoints, Within chart.axisUnit 8192 v := by
  obtain ⟨hunit, hunit', hsmall⟩ := axisUnit_bounds (slots_lt h)
  have hhi : Within chart.axisUnit 3 chart.axisEnd := (exists_axis hunit hunit' hsmall).1
  obtain ⟨⟨s, hs⟩, g, hg⟩ := exists_axisStep h
  have hm : chart.axisUnit ≤ 100 := by omega
  have hpoints : chart.xKeyPoints =
      fractionalIn (-oneHalf) chart.axisEnd chart.slots chart.axisDecade := rfl
  intro v hv
  rw [hpoints, fractionalIn] at hv
  generalize fractionalStep (-oneHalf) chart.axisEnd chart.slots chart.axisDecade = found
    at hv hs hg
  split at hv
  · exact absurd hv List.not_mem_nil
  · have hlo : Within chart.axisUnit 1 (-oneHalf) := (oneHalf_within _).neg
    have hfirst := hlo.firstMultiple hs hm (by decide) (by decide)
    have hbase := hfirst.multiple hg hm (by decide) (by decide)
    obtain ⟨r, hr, hsize⟩ := hfirst.sub hbase hm (by decide)
    have hlast := hhi.lastMultiple hs hm (by decide) (by decide)
    have hunits : (0 : Rat) < 2 ^ chart.axisUnit := by positivity
    rw [abs_le] at hsize
    push_cast at hsize
    exact within_walk hm (hbase.mono (by decide)) (hlast.mono (by decide)) hs hg _ hr (by linarith)
      (by linarith) v hv

/-- A tick is at most so many times as far away as the axis is long. -/
theorem exists_tickShare (h : chart.bars.length < 2 ^ 63) {v : Binary64}
    (hv : v ∈ chart.xKeyPoints) :
    ∃ s, (shareOf v (-oneHalf) (ofNat chart.slots - oneHalf)).HasValue s ∧ |s| ≤ 2 ^ 15 := by
  obtain ⟨hunit, hunit', hsmall⟩ := axisUnit_bounds (slots_lt h)
  obtain ⟨_, d, hd, hdlow, _⟩ := exists_axis hunit hunit' hsmall
  obtain ⟨a, ha, hsize⟩ :=
    (within_xKeyPoints h v hv).sub (oneHalf_within _).neg (by omega) (by decide)
  have hunits : (0 : Rat) < 2 ^ chart.axisUnit := by positivity
  have hpos : 0 < d := by linarith
  have hquotient : |a / d| ≤ 2 ^ 15 := by
    rw [abs_div, abs_of_pos hpos, div_le_iff₀ hpos]
    push_cast at hsize
    linarith
  have hbound := representable_two_pow (k := 15) (by decide)
  obtain ⟨s, hs, hlow, hhigh⟩ := ha.div_between hd hpos.ne' (representable_neg hbound) hbound
    (abs_le.mp hquotient).1 (abs_le.mp hquotient).2
  exact ⟨s, hs, abs_le.mpr ⟨hlow, hhigh⟩⟩

end BarChart

/-! ## Steps to a pixel -/

/-- What is not very many times the way from one end of a plot to the other becomes an integer that
fits thirty-two bits without being cut off. -/
theorem exists_steps {span : Int} (hspan : span.natAbs ≤ 2 ^ 15) {x : Binary64} {s : Rat}
    (hx : x.HasValue s) (hs : |s| ≤ 2 ^ 15) :
    ∃ up down : Int,
      ((ofInt span * x + .ofRat false (mkRat 1 1000)).floor.HasValue up ∧ |up| ≤ 2 ^ 30 + 1) ∧
      (ofInt span * x - .ofRat false (mkRat 1 1000)).ceil.HasValue down ∧
        |down| ≤ 2 ^ 30 + 1 := by
  obtain ⟨t, ht, ht₀, ht₁⟩ := exists_tolerance
  have hfactor : (ofInt span).HasValue span :=
    ofInt_hasValue (by simp only [significands]; omega)
  have hspanr : |(span : Rat)| ≤ 2 ^ 15 := by
    rw [← Int.cast_abs, Int.abs_eq_natAbs]
    exact_mod_cast hspan
  have hproduct : |(span : Rat) * s| ≤ 2 ^ 30 := by
    rw [abs_mul]
    calc |(span : Rat)| * |s| ≤ 2 ^ 15 * 2 ^ 15 := by gcongr
      _ = 2 ^ 30 := by norm_num
  rw [abs_le] at hproduct
  have hbound := representable_two_pow (k := 30) (by decide)
  have hmore : Representable (((2 ^ 30 + 1 : Int)) : Rat) := representable_intCast (by decide)
  push_cast at hmore
  obtain ⟨p, hp, hplow, hphigh⟩ := hfactor.mul_between hx (representable_neg hbound) hbound
    hproduct.1 hproduct.2
  obtain ⟨u, hu, hulow, huhigh⟩ := hp.add_between ht (representable_neg hmore) hmore
    (by linarith) (by linarith)
  obtain ⟨d, hd, hdlow, hdhigh⟩ := hp.add_between ht.neg (representable_neg hmore) hmore
    (by linarith) (by linarith)
  refine ⟨u.floor, d.ceil, ⟨hu.floor, ?_⟩, HasValue.ceil hd, ?_⟩
  · have hlow : -(2 ^ 30 + 1) ≤ u.floor := Rat.le_floor_iff.mpr (by push_cast; linarith)
    have hhigh : u.floor < 2 ^ 30 + 1 + 1 := Rat.floor_lt_iff.mpr (by push_cast; linarith)
    rw [abs_le]
    omega
  · have hlow : -(2 ^ 30 + 1) - 1 < d.ceil := Rat.lt_ceil_iff.mpr (by push_cast; linarith)
    have hhigh : d.ceil ≤ 2 ^ 30 + 1 := Rat.ceil_le_iff.mpr (by push_cast; linarith)
    rw [abs_le]
    omega

end RehashChart
