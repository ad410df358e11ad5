import RehashChart.Binary64.Arithmetic
import RehashChart.Proofs.Binary64.Rounding

/-! # Arithmetic on exact values

Where the exact result of an operation is some number's value the operation has that value, and
comparisons are those of the values.
-/

namespace RehashChart.Binary64

/-! ## Small numbers -/

theorem zero_hasValue : (0 : Binary64).HasValue 0 := ofNat_hasValue (n := 0) (by decide)

theorem one_hasValue : (1 : Binary64).HasValue 1 := by
  exact_mod_cast ofNat_hasValue (n := 1) (by decide)

theorem two_hasValue : (2 : Binary64).HasValue 2 := ofNat_hasValue (n := 2) (by decide)

theorem ten_hasValue : (10 : Binary64).HasValue 10 := ofNat_hasValue (n := 10) (by decide)

/-! ## Integers near a number -/

theorem truncated_intCast (n : Int) : truncated n = n := by
  unfold truncated
  split
  · exact Rat.ceil_intCast n
  · exact Rat.floor_intCast n

theorem truncated_of_nonneg {q : Rat} (h : 0 ≤ q) : truncated q = q.floor :=
  if_neg (not_lt.mpr h)

theorem floor_eq_of_between {q : Rat} {n : Int} (hlow : (n : Rat) ≤ q) (hhigh : q < n + 1) :
    q.floor = n := by
  have h₁ : n ≤ q.floor := Rat.le_floor_iff.mpr hlow
  have h₂ : q.floor < n + 1 := Rat.floor_lt_iff.mpr (by exact_mod_cast hhigh)
  omega

theorem ceil_eq_of_between {q : Rat} {n : Int} (hlow : (n : Rat) - 1 < q) (hhigh : q ≤ n) :
    q.ceil = n := by
  have h₁ : n - 1 < q.ceil := Rat.lt_ceil_iff.mpr (by exact_mod_cast hlow)
  have h₂ : q.ceil ≤ n := Rat.ceil_le_iff.mpr hhigh
  omega

theorem mkRat_one_two : mkRat 1 2 = 1 / 2 := by rw [Rat.mkRat_eq_div]; norm_num

theorem roundAway_of_nonneg {q : Rat} (h : 0 ≤ q) : roundAway q = (q + 1 / 2).floor := by
  rw [roundAway, if_neg (not_lt.mpr h), mkRat_one_two]

theorem roundAway_near (q : Rat) : |(roundAway q : Rat) - q| ≤ 1 / 2 := by
  rw [roundAway, mkRat_one_two]
  split
  · have hlow := Rat.floor_le (-q + 1 / 2)
    have hhigh := Rat.lt_floor_add_one (-q + 1 / 2)
    push_cast at hhigh ⊢
    rw [abs_le]
    constructor <;> linarith
  · have hlow := Rat.floor_le (q + 1 / 2)
    have hhigh := Rat.lt_floor_add_one (q + 1 / 2)
    push_cast at hhigh
    rw [abs_le]
    constructor <;> linarith

theorem roundAway_eq_of_near {q : Rat} {n : Int} (h : |q - n| < 1 / 2) : roundAway q = n := by
  have hround := abs_le.mp (roundAway_near q)
  have hnear := abs_lt.mp h
  have h₁ : (roundAway q : Rat) < n + 1 := by linarith
  have h₂ : (n : Rat) < roundAway q + 1 := by linarith
  have h₁' : roundAway q < n + 1 := by exact_mod_cast h₁
  have h₂' : n < roundAway q + 1 := by exact_mod_cast h₂
  omega

theorem roundAway_intCast (n : Int) : roundAway n = n :=
  roundAway_eq_of_near (by rw [sub_self, abs_zero]; norm_num)

/-- The nearest integer is not farther from a number than zero is. -/
theorem abs_sub_roundAway_le (q : Rat) : |q - roundAway q| ≤ |q| := by
  rcases lt_or_ge |q| (1 / 2) with hsmall | hlarge
  · rw [roundAway_eq_of_near (n := 0) (by rwa [Int.cast_zero, sub_zero]), Int.cast_zero, sub_zero]
  · rw [abs_sub_comm]
    exact (roundAway_near q).trans hlarge

/-- What a number exceeds the nearest integer by is a number, with the last bit of the number as its
own. -/
theorem representable_sub_roundAway {q : Rat} (h : Representable q) :
    Representable (q - roundAway q) := by
  obtain ⟨c, k, hc, hlow, hhigh, hq⟩ := h
  rcases le_or_gt 0 k with hk | hk
  · have hwhole : q = ((c * 2 ^ k.toNat : Int) : Rat) := by
      rw [hq, zpow_of_nonneg hk]
      push_cast
      rfl
    rw [hwhole, roundAway_intCast, sub_self]
    exact representable_zero
  · have hpow : (0 : Rat) < 2 ^ k := by positivity
    have hunit : (2 : Rat) ^ (-k).toNat * 2 ^ k = 1 := by
      rw [zpow_of_neg (by omega), mul_inv_cancel₀ (by positivity)]
    have hdifference : q - roundAway q = (c - roundAway q * 2 ^ (-k).toNat : Int) * 2 ^ k := by
      push_cast
      rw [sub_mul, mul_assoc, hunit, mul_one, ← hq]
    refine ⟨c - roundAway q * 2 ^ (-k).toNat, k, ?_, hlow, hhigh, hdifference⟩
    have hle := abs_sub_roundAway_le q
    rw [hdifference, hq, abs_mul, abs_mul, abs_of_pos hpow] at hle
    have hle' := le_of_mul_le_mul_right hle hpow
    rw [← hq] at hle'
    have hsignificand : |c - roundAway q * 2 ^ (-k).toNat| ≤ |c| := by exact_mod_cast hle'
    rw [Int.abs_eq_natAbs, Int.abs_eq_natAbs] at hsignificand
    omega

namespace HasValue

variable {x x' y : Binary64} {p p' q r r' low high : Rat}

theorem eq_finite (h : x.HasValue p) :
    ∃ s m e hcanonical, x = .finite s m e hcanonical ∧
      (Binary64.finite s m e hcanonical).toRat = p := by
  obtain ⟨hfinite, rfl⟩ := h
  cases x with
  | nan => simp [isFinite] at hfinite
  | infinity s => simp [isFinite] at hfinite
  | finite s m e hcanonical => exact ⟨s, m, e, hcanonical, rfl, rfl⟩

/-! ## One rounding each -/

theorem add_eq (hx : x.HasValue p) (hy : y.HasValue q) :
    x + y = ofRat (x.isNegative && y.isNegative) (p + q) := by
  obtain ⟨s, m, e, hc, rfl, rfl⟩ := hx.eq_finite
  obtain ⟨t, n, f, hd, rfl, rfl⟩ := hy.eq_finite
  rfl

theorem neg (hx : x.HasValue p) : (-x).HasValue (-p) := by
  obtain ⟨s, m, e, hc, rfl, rfl⟩ := hx.eq_finite
  refine ⟨rfl, ?_⟩
  change (Binary64.finite (!s) m e hc).toRat = _
  rw [toRat_finite, toRat_finite]
  cases s <;> simp

theorem sub_eq (hx : x.HasValue p) (hy : y.HasValue q) : ∃ s, x - y = ofRat s (p - q) :=
  ⟨_, (hx.add_eq hy.neg).trans (by rw [sub_eq_add_neg])⟩

theorem mul_eq (hx : x.HasValue p) (hy : y.HasValue q) : ∃ s, x * y = ofRat s (p * q) := by
  obtain ⟨s, m, e, hc, rfl, rfl⟩ := hx.eq_finite
  obtain ⟨t, n, f, hd, rfl, rfl⟩ := hy.eq_finite
  exact ⟨_, rfl⟩

theorem div_eq (hx : x.HasValue p) (hy : y.HasValue q) (hq : q ≠ 0) :
    ∃ s, x / y = ofRat s (p / q) := by
  obtain ⟨s, m, e, hc, rfl, rfl⟩ := hx.eq_finite
  obtain ⟨t, n, f, hd, rfl, rfl⟩ := hy.eq_finite
  exact ⟨_, if_neg hq⟩

theorem toWhole_eq (hx : x.HasValue p) (f : Rat → Int) :
    ∃ s, x.toWhole f = ofRat s (f p : Int) := by
  obtain ⟨s, m, e, hc, rfl, rfl⟩ := hx.eq_finite
  exact ⟨_, rfl⟩

/-! ## Exact results -/

theorem add (hx : x.HasValue p) (hy : y.HasValue q) (h : Representable (p + q)) :
    (x + y).HasValue (p + q) := by
  rw [hx.add_eq hy]
  exact ofRat_exact _ h

theorem sub (hx : x.HasValue p) (hy : y.HasValue q) (h : Representable (p - q)) :
    (x - y).HasValue (p - q) := by
  obtain ⟨s, hsub⟩ := hx.sub_eq hy
  rw [hsub]
  exact ofRat_exact s h

theorem mul (hx : x.HasValue p) (hy : y.HasValue q) (h : Representable (p * q)) :
    (x * y).HasValue (p * q) := by
  obtain ⟨s, hmul⟩ := hx.mul_eq hy
  rw [hmul]
  exact ofRat_exact s h

theorem div (hx : x.HasValue p) (hy : y.HasValue q) (hq : q ≠ 0) (h : Representable (p / q)) :
    (x / y).HasValue (p / q) := by
  obtain ⟨s, hdiv⟩ := hx.div_eq hy hq
  rw [hdiv]
  exact ofRat_exact s h

/-- Going to a neighbouring integer is exact: either the number is an integer already, or it is so
small that all integers near it are numbers. -/
theorem representable_of_near (hx : x.HasValue p) {n : Int} (hnear : |(n : Rat) - p| ≤ 1)
    (hinteger : ∀ m : Int, p = m → n = m) : Representable n := by
  obtain ⟨c, k, hc, hlow, hhigh, hp⟩ := hx.representable
  rcases le_or_gt 0 k with hk | hk
  · have hwhole : p = ((c * 2 ^ k.toNat : Int) : Rat) := by
      rw [hp, zpow_of_nonneg hk]
      push_cast
      rfl
    rw [hinteger _ hwhole, ← hwhole, hp]
    exact ⟨c, k, hc, hlow, hhigh, rfl⟩
  · refine representable_intCast ?_
    have hcr : |(c : Rat)| < significands := by
      rw [← Int.cast_abs, Int.abs_eq_natAbs, Int.cast_natCast]
      exact_mod_cast hc
    have hpow : (2 : Rat) ^ k ≤ 1 / 2 := by
      have h := zpow_le_zpow_right₀ (one_le_two : (1 : Rat) ≤ 2) (by omega : k ≤ -1)
      rwa [zpow_neg_one, ← one_div] at h
    have habs : |p| ≤ significands / 2 := by
      rw [hp, abs_mul, abs_of_pos (by positivity : (0 : Rat) < 2 ^ k)]
      calc |(c : Rat)| * 2 ^ k ≤ significands * (1 / 2) := by gcongr
        _ = significands / 2 := by ring
    have hn : |(n : Rat)| ≤ significands / 2 + 1 := by
      calc |(n : Rat)| = |((n : Rat) - p) + p| := by rw [sub_add_cancel]
        _ ≤ |(n : Rat) - p| + |p| := abs_add_le _ _
        _ ≤ significands / 2 + 1 := by linarith
    have hless : |(n : Rat)| < significands := by
      refine hn.trans_lt ?_
      norm_num [significands]
    rw [← Int.cast_abs, Int.abs_eq_natAbs, Int.cast_natCast] at hless
    exact_mod_cast hless

theorem toWhole (hx : x.HasValue p) {f : Rat → Int} (hnear : |(f p : Rat) - p| ≤ 1)
    (hinteger : ∀ m : Int, f m = m) : (x.toWhole f).HasValue (f p : Int) := by
  obtain ⟨s, hwhole⟩ := hx.toWhole_eq f
  rw [hwhole]
  refine ofRat_exact s (hx.representable_of_near hnear ?_)
  intro m hm
  rw [hm, hinteger]

theorem floor (hx : x.HasValue p) : x.floor.HasValue (p.floor : Int) := by
  refine hx.toWhole ?_ Rat.floor_intCast
  have hlow := Rat.floor_le p
  have hhigh := Rat.lt_floor_add_one p
  push_cast at hhigh
  rw [abs_le]
  constructor <;> linarith

theorem ceil (hx : x.HasValue p) : x.ceil.HasValue (p.ceil : Int) := by
  refine hx.toWhole ?_ Rat.ceil_intCast
  have hlow : p ≤ (p.ceil : Rat) := Rat.le_ceil
  have hhigh : (p.ceil : Rat) < p + 1 := Rat.ceil_lt
  rw [abs_le]
  constructor <;> linarith

theorem round (hx : x.HasValue p) : x.round.HasValue (roundAway p : Int) := by
  refine hx.toWhole ?_ roundAway_intCast
  have h := roundAway_near p
  linarith

theorem sub_round (hx : x.HasValue p) : (x - x.round).HasValue (p - roundAway p) :=
  hx.sub hx.round (representable_sub_roundAway hx.representable)

theorem abs (hx : x.HasValue p) : x.abs.HasValue |p| := by
  obtain ⟨s, m, e, hc, rfl, rfl⟩ := hx.eq_finite
  refine ⟨rfl, ?_⟩
  change (Binary64.finite false m e hc).toRat = _
  rw [toRat_finite, toRat_finite]
  have hpos : (0 : Rat) ≤ m * 2 ^ e := by positivity
  cases s <;> simp [abs_of_nonneg hpos]

/-! ## Results between two numbers -/

theorem add_between (hx : x.HasValue p) (hy : y.HasValue q) (hlow : Representable low)
    (hhigh : Representable high) (h₁ : low ≤ p + q) (h₂ : p + q ≤ high) :
    ∃ r, (x + y).HasValue r ∧ low ≤ r ∧ r ≤ high := by
  rw [hx.add_eq hy]
  exact ofRat_between _ hlow hhigh h₁ h₂

theorem mul_between (hx : x.HasValue p) (hy : y.HasValue q) (hlow : Representable low)
    (hhigh : Representable high) (h₁ : low ≤ p * q) (h₂ : p * q ≤ high) :
    ∃ r, (x * y).HasValue r ∧ low ≤ r ∧ r ≤ high := by
  obtain ⟨s, hmul⟩ := hx.mul_eq hy
  rw [hmul]
  exact ofRat_between s hlow hhigh h₁ h₂

theorem div_between (hx : x.HasValue p) (hy : y.HasValue q) (hq : q ≠ 0)
    (hlow : Representable low) (hhigh : Representable high) (h₁ : low ≤ p / q)
    (h₂ : p / q ≤ high) : ∃ r, (x / y).HasValue r ∧ low ≤ r ∧ r ≤ high := by
  obtain ⟨s, hdiv⟩ := hx.div_eq hy hq
  rw [hdiv]
  exact ofRat_between s hlow hhigh h₁ h₂

/-! ## Results close to the exact ones -/

theorem add_close (hx : x.HasValue p) (hy : y.HasValue q) (h₁ : 1 / 2 ^ 64 ≤ p + q)
    (h₂ : p + q ≤ 2 ^ 70) :
    ∃ r, (x + y).HasValue r ∧ 0 ≤ r ∧ p + q - (p + q) / 2 ^ 53 ≤ r ∧
      r ≤ p + q + (p + q) / 2 ^ 53 := by
  rw [hx.add_eq hy]
  exact exists_close _ h₁ h₂

theorem sub_close (hx : x.HasValue p) (hy : y.HasValue q) (h₁ : 1 / 2 ^ 64 ≤ p - q)
    (h₂ : p - q ≤ 2 ^ 70) :
    ∃ r, (x - y).HasValue r ∧ 0 ≤ r ∧ p - q - (p - q) / 2 ^ 53 ≤ r ∧
      r ≤ p - q + (p - q) / 2 ^ 53 := by
  obtain ⟨s, hsub⟩ := hx.sub_eq hy
  rw [hsub]
  exact exists_close s h₁ h₂

theorem div_close (hx : x.HasValue p) (hy : y.HasValue q) (hq : q ≠ 0) (h₁ : 1 / 2 ^ 64 ≤ p / q)
    (h₂ : p / q ≤ 2 ^ 70) :
    ∃ r, (x / y).HasValue r ∧ 0 ≤ r ∧ p / q - p / q / 2 ^ 53 ≤ r ∧
      r ≤ p / q + p / q / 2 ^ 53 := by
  obtain ⟨s, hdiv⟩ := hx.div_eq hy hq
  rw [hdiv]
  exact exists_close s h₁ h₂

/-! ## What results are rounded from -/

theorem add_rounds (hx : x.HasValue p) (hy : y.HasValue q) (hr : (x + y).HasValue r) :
    RoundsTo (p + q) r :=
  roundsTo_of_hasValue (hx.add_eq hy ▸ hr)

theorem sub_rounds (hx : x.HasValue p) (hy : y.HasValue q) (hr : (x - y).HasValue r) :
    RoundsTo (p - q) r := by
  obtain ⟨s, hsub⟩ := hx.sub_eq hy
  exact roundsTo_of_hasValue (hsub ▸ hr)

theorem mul_rounds (hx : x.HasValue p) (hy : y.HasValue q) (hr : (x * y).HasValue r) :
    RoundsTo (p * q) r := by
  obtain ⟨s, hmul⟩ := hx.mul_eq hy
  exact roundsTo_of_hasValue (hmul ▸ hr)

theorem div_rounds (hx : x.HasValue p) (hy : y.HasValue q) (hq : q ≠ 0)
    (hr : (x / y).HasValue r) : RoundsTo (p / q) r := by
  obtain ⟨s, hdiv⟩ := hx.div_eq hy hq
  exact roundsTo_of_hasValue (hdiv ▸ hr)

/-! ## Opposite results -/

theorem mul_opposite (hx : x.HasValue p) (hx' : x'.HasValue (-p)) (hy : y.HasValue q)
    (hr : (x * y).HasValue r) : (x' * y).HasValue (-r) := by
  obtain ⟨s, hmul⟩ := hx'.mul_eq hy
  have hrounds := (hx.mul_rounds hy hr).opposite
  rw [← neg_mul] at hrounds
  rw [hmul]
  exact hasValue_of_roundsTo s hrounds (abs_lt_limit (representable_neg hr.representable))

theorem sub_opposite (hx : x.HasValue p) (hx' : x'.HasValue (-p)) (hy : y.HasValue q)
    (hr : (x + y).HasValue r) : (x' - y).HasValue (-r) := by
  obtain ⟨s, hsub⟩ := hx'.sub_eq hy
  have hrounds := (hx.add_rounds hy hr).opposite
  rw [neg_add'] at hrounds
  rw [hsub]
  exact hasValue_of_roundsTo s hrounds (abs_lt_limit (representable_neg hr.representable))

/-! ## Results in order -/

theorem div_le (hx : x.HasValue p) (hx' : x'.HasValue p') (hy : y.HasValue q) (hq : 0 < q)
    (hr : (x / y).HasValue r) (hr' : (x' / y).HasValue r') (h : p ≤ p') : r ≤ r' :=
  (hx.div_rounds hy hq.ne' hr).mono (hx'.div_rounds hy hq.ne' hr')
    (div_le_div_of_nonneg_right h hq.le)

/-! ## Comparisons and conversions -/

theorem lt_eq (hx : x.HasValue p) (hy : y.HasValue q) : x.lt y = decide (p < q) := by
  obtain ⟨s, m, e, hc, rfl, rfl⟩ := hx.eq_finite
  obtain ⟨t, n, f, hd, rfl, rfl⟩ := hy.eq_finite
  rfl

theorem eq_eq (hx : x.HasValue p) (hy : y.HasValue q) : x.eq y = decide (p = q) := by
  obtain ⟨s, m, e, hc, rfl, rfl⟩ := hx.eq_finite
  obtain ⟨t, n, f, hd, rfl, rfl⟩ := hy.eq_finite
  rfl

theorem le_eq (hx : x.HasValue p) (hy : y.HasValue q) : x.le y = decide (p ≤ q) := by
  rw [le, hx.lt_eq hy, hx.eq_eq hy, ← Bool.decide_or]
  exact decide_eq_decide.mpr le_iff_lt_or_eq.symm

theorem clampTo_eq (hx : x.HasValue p) (lo hi : Int) :
    x.clampTo lo hi = max lo (min hi (truncated p)) := by
  obtain ⟨s, m, e, hc, rfl, rfl⟩ := hx.eq_finite
  rfl

theorem toNat64_eq (hx : x.HasValue p) (h : 0 ≤ p) :
    x.toNat64 = min (UInt64.size - 1) p.floor.toNat := by
  have hfloor : 0 ≤ p.floor := Rat.le_floor_iff.mpr (by exact_mod_cast h)
  rw [toNat64, hx.clampTo_eq, truncated_of_nonneg h]
  simp only [UInt64.size]
  omega

theorem toInt32_eq {k : Int} (hx : x.HasValue k) (hlow : -2147483648 ≤ k)
    (hhigh : k ≤ 2147483647) : x.toInt32 = k := by
  rw [toInt32, hx.clampTo_eq, truncated_intCast]
  omega

theorem isNegative_of_pos (hx : x.HasValue p) (h : 0 < p) : x.isNegative = false := by
  obtain ⟨s, m, e, hc, rfl, rfl⟩ := hx.eq_finite
  cases s with
  | false => rfl
  | true =>
      rw [toRat_finite] at h
      have hpos : (0 : Rat) ≤ m * 2 ^ e := by positivity
      simp only [if_true, Int.cast_neg, Int.cast_natCast, neg_mul] at h
      linarith

end HasValue

theorem eq_zero_iff {x : Binary64} : x.eq 0 = true ↔ x.HasValue 0 := by
  constructor
  · intro h
    cases x with
    | nan => cases h
    | infinity s => cases h
    | finite s m e hcanonical =>
        have hvalue : (finite s m e hcanonical).HasValue (finite s m e hcanonical).toRat :=
          ⟨rfl, rfl⟩
        rw [hvalue.eq_eq zero_hasValue, decide_eq_true_iff] at h
        rwa [h] at hvalue
  · intro h
    rw [h.eq_eq zero_hasValue]
    exact decide_eq_true rfl

end RehashChart.Binary64
