import RehashChart.Binary64.Shortest
import RehashChart.Proofs.Binary64.Rounding
import RehashChart.Proofs.Text.Numerals

/-! # The shortest decimal text of a number

Every decimal in the basin of a number is rounded to the number, and one of the two decimals with
seventeen digits around the number always is in its basin.
-/

namespace RehashChart.Binary64

open Text (IsDigits)

/-! ## Basins -/

section Basins

theorem two_zpow_eq (e : Int) : (2 : Rat) ^ e = 2 * 2 ^ (e - 1) := by
  rw [zpow_sub_one₀ two_ne_zero]
  ring

variable {m : Nat} {e : Int} {r : Rat}

theorem low_basinOf_of_full (h : m = fullSignificand ∧ -1074 < e) :
    (basinOf m e).low = (m - 1 / 4) * 2 ^ e := by
  have hpow : (2 : Rat) ^ e = 2 ^ (e - 2) * 4 := by
    rw [zpow_sub₀ two_ne_zero]
    norm_num
  have hlow : (basinOf m e).low = shifted (4 * m - 1) (e - 2) := if_pos h
  rw [hlow, shifted_eq, hpow]
  push_cast
  ring

theorem low_basinOf (h : ¬(m = fullSignificand ∧ -1074 < e)) :
    (basinOf m e).low = (m - 1 / 2) * 2 ^ e := by
  have hlow : (basinOf m e).low = shifted (2 * m - 1) (e - 1) := if_neg h
  rw [hlow, shifted_eq, two_zpow_eq e]
  push_cast
  ring

theorem high_basinOf (m : Nat) (e : Int) : (basinOf m e).high = (m + 1 / 2) * 2 ^ e := by
  have hhigh : (basinOf m e).high = shifted (2 * m + 1) (e - 1) := rfl
  rw [hhigh, shifted_eq, two_zpow_eq e]
  push_cast
  ring

theorem basin_between (h : (basinOf m e).contains r = true) :
    (basinOf m e).low ≤ r ∧ r ≤ (basinOf m e).high := by
  unfold Basin.contains at h
  split at h
  · simpa using h
  · exact (by simpa using h : _ ∧ _).imp le_of_lt le_of_lt

theorem even_of_basin_end (h : (basinOf m e).contains r = true)
    (hend : r = (basinOf m e).low ∨ r = (basinOf m e).high) : m % 2 = 0 := by
  by_contra hodd
  have hopen : (basinOf m e).closed = false := decide_eq_false hodd
  simp only [Basin.contains, hopen, Bool.false_eq_true, if_false, Bool.and_eq_true,
    decide_eq_true_eq] at h
  rcases hend with rfl | rfl
  · exact absurd h.1 (lt_irrefl _)
  · exact absurd h.2 (lt_irrefl _)

theorem basin_contains_of_between (hlow : (basinOf m e).low < r) (hhigh : r < (basinOf m e).high) :
    (basinOf m e).contains r = true := by
  unfold Basin.contains
  split
  · simp [hlow.le, hhigh.le]
  · simp [hlow, hhigh]

/-- What is nearer to a number than one part in `2 ^ 54` is in its basin. -/
theorem basin_contains_of_near (h : Canonical m e) (hnear : |r - m * 2 ^ e| < m * 2 ^ e / 2 ^ 54) :
    (basinOf m e).contains r = true := by
  have hunit : (0 : Rat) < 2 ^ e := by positivity
  have hm : (m : Rat) < 2 ^ 53 := by
    exact_mod_cast (show m < 2 ^ 53 from h.1)
  have hhalf : (m : Rat) * 2 ^ e / 2 ^ 54 < 2 ^ e / 2 := by
    rw [div_lt_div_iff₀ (by positivity) two_pos]
    nlinarith
  obtain ⟨hbelow, habove⟩ := abs_lt.mp hnear
  apply basin_contains_of_between
  · by_cases hfull : m = fullSignificand ∧ -1074 < e
    · rw [low_basinOf_of_full hfull]
      have hvalue : (m : Rat) = 2 ^ 52 := by
        rw [hfull.1]
        norm_num [fullSignificand]
      have hquarter : (m : Rat) * 2 ^ e / 2 ^ 54 = 2 ^ e / 4 := by
        rw [hvalue]
        ring
      linarith
    · rw [low_basinOf hfull]
      linarith
  · rw [high_basinOf]
    linarith

theorem pos_of_basin_contains (hm : 0 < m) (h : (basinOf m e).contains r = true) : 0 < r := by
  have hunit : (0 : Rat) < 2 ^ e := by positivity
  have hone : (1 : Rat) ≤ m := by exact_mod_cast hm
  refine lt_of_lt_of_le ?_ (basin_between h).1
  by_cases hfull : m = fullSignificand ∧ -1074 < e
  · rw [low_basinOf_of_full hfull]
    exact mul_pos (by linarith) hunit
  · rw [low_basinOf hfull]
    exact mul_pos (by linarith) hunit

theorem basin_range (h : Canonical m e) (hm : 0 < m) (hr : (basinOf m e).contains r = true) :
    (2 : Rat) ^ (-1075 : Int) ≤ r ∧ r < limit := by
  have hunit : (0 : Rat) < 2 ^ e := by positivity
  have hone : (1 : Rat) ≤ m := by exact_mod_cast hm
  obtain ⟨hlow, hhigh⟩ := basin_between hr
  obtain ⟨hless, hleast, hmost, _⟩ := h
  constructor
  · have hhalf : (1 / 2) * 2 ^ e ≤ (basinOf m e).low := by
      by_cases hfull : m = fullSignificand ∧ -1074 < e
      · rw [low_basinOf_of_full hfull]
        gcongr
        linarith
      · rw [low_basinOf hfull]
        gcongr
        linarith
    calc (2 : Rat) ^ (-1075 : Int) ≤ 2 ^ (e - 1) := zpow_le_zpow_right₀ one_le_two (by omega)
      _ = (1 / 2) * 2 ^ e := by rw [two_zpow_eq e]; ring
      _ ≤ r := hhalf.trans hlow
  · have hmore : (m : Rat) + 1 ≤ significands := by exact_mod_cast hless
    rw [high_basinOf] at hhigh
    calc r ≤ (m + 1 / 2) * 2 ^ e := hhigh
      _ < significands * 2 ^ e := by
          gcongr
          linarith
      _ = 2 ^ (e + 53) := significands_mul e
      _ ≤ limit := zpow_le_zpow_right₀ one_le_two (by omega)

/-- In the basin at or above a power of two, and everywhere else, the unit is that of the number. -/
theorem nearest_of_basin_contains (h : Canonical m e)
    (hr : (basinOf m e).contains r = true)
    (hside : ¬(m = fullSignificand ∧ -1074 < e) ∨ m * 2 ^ e ≤ r) : Nearest r m e := by
  have hunit : (0 : Rat) < 2 ^ e := by positivity
  have hhigh := (basin_between hr).2
  rw [high_basinOf] at hhigh
  have hlow : (m - 1 / 2) * 2 ^ e ≤ r := by
    rcases hside with hside | hside
    · rw [← low_basinOf hside]
      exact (basin_between hr).1
    · linarith
  have hm : (m : Rat) + 1 ≤ significands := by exact_mod_cast h.1
  refine ⟨h.2.1, ?_, ?_, ?_, ?_, ?_⟩
  · rw [← significands_mul]
    nlinarith
  · by_cases he : e = -1074
    · exact .inr he
    · refine .inl ?_
      rw [← fullSignificand_mul]
      have hfull := h.2.2.2.resolve_right he
      rcases hside with hside | hside
      · have hmore : fullSignificand + 1 ≤ m := by
          have := h.2.1
          omega
        have hmore' : (fullSignificand : Rat) + 1 ≤ m := by exact_mod_cast hmore
        nlinarith
      · refine le_trans ?_ hside
        gcongr
  · rwa [le_div_iff₀ hunit]
  · rwa [div_le_iff₀ hunit]
  · intro hend
    apply even_of_basin_end hr
    rw [high_basinOf]
    rcases hend with hend | hend
    · rw [div_eq_iff hunit.ne'] at hend
      refine .inl ?_
      rw [hend, low_basinOf]
      rcases hside with hside | hside
      · exact hside
      · linarith
    · rw [div_eq_iff hunit.ne'] at hend
      exact .inr hend

theorem roundsTo_of_basin_contains (h : Canonical m e) (hm : 0 < m)
    (hr : (basinOf m e).contains r = true) : RoundsTo r (m * 2 ^ e) := by
  have hpos := pos_of_basin_contains hm hr
  by_cases hside : ¬(m = fullSignificand ∧ -1074 < e) ∨ m * 2 ^ e ≤ r
  · exact .pos hpos (nearest_of_basin_contains h hr hside)
  · -- below a power of two the unit is half as large, and the significand is one too large
    push Not at hside
    obtain ⟨⟨hfull, he⟩, hbelow⟩ := hside
    have hlow := (basin_between hr).1
    rw [low_basinOf_of_full ⟨hfull, he⟩] at hlow
    have hpow := two_zpow_eq e
    have hunit : (0 : Rat) < 2 ^ (e - 1) := by positivity
    have hvalue : (m : Rat) * 2 ^ e = significands * 2 ^ (e - 1) := by
      rw [hfull, hpow]
      norm_num [fullSignificand, significands]
      ring
    have hmr : (m : Rat) = fullSignificand := by rw [hfull]
    rw [hvalue]
    refine .pos hpos ⟨by omega, ?_, .inl ?_, ?_, ?_, fun _ => by decide⟩
    · rw [← significands_mul, ← hvalue]
      exact hbelow
    · rw [← fullSignificand_mul, ← hmr]
      refine le_trans ?_ hlow
      rw [hpow, hmr]
      norm_num [fullSignificand]
      linarith
    · rw [le_div_iff₀ hunit]
      rw [hpow] at hlow
      norm_num [hmr, fullSignificand, significands] at hlow ⊢
      linarith
    · rw [div_le_iff₀ hunit]
      rw [hvalue] at hbelow
      linarith

end Basins

/-! ## The place of the point -/

theorem toNat_floor_spec {q : Rat} (h : 0 ≤ q) :
    (q.floor.toNat : Rat) ≤ q ∧ q < q.floor.toNat + 1 := by
  have hfloor : 0 ≤ q.floor := Rat.le_floor_iff.mpr (by exact_mod_cast h)
  have hcast : (q.floor.toNat : Rat) = (q.floor : Int) := by
    exact_mod_cast Int.toNat_of_nonneg hfloor
  rw [hcast]
  exact ⟨Rat.floor_le q, by exact_mod_cast Rat.lt_floor_add_one q⟩

theorem length_spec {n : Nat} (hn : 0 < n) :
    (10 : Rat) ^ (Decimal.length n - 1 : Int) ≤ n ∧
      (n : Rat) + 1 ≤ 10 ^ (Decimal.length n : Int) := by
  have hpos : 0 < Decimal.length n := Nat.length_toDigits_pos
  have hhigh : n < 10 ^ Decimal.length n :=
    (Nat.length_toDigits_le_iff (by decide) hpos).mp (le_refl _)
  have hlow : 10 ^ (Decimal.length n - 1) ≤ n := by
    rcases Nat.eq_zero_or_pos (Decimal.length n - 1) with hone | hmore
    · rw [hone]
      exact hn
    · by_contra hless
      have := (Nat.length_toDigits_le_iff (by decide) hmore).mpr (Nat.lt_of_not_le hless)
      have : Decimal.length n ≤ Decimal.length n - 1 := this
      omega
  constructor
  · rw [zpow_of_nonneg (by omega)]
    have hexponent : (Decimal.length n - 1 : Int).toNat = Decimal.length n - 1 := by omega
    rw [hexponent]
    exact_mod_cast hlow
  · rw [zpow_natCast]
    exact_mod_cast hhigh

/-- The point stands where the number is `0.d₁d₂… * 10 ^ point` with `d₁` not a zero. -/
theorem pointOf_spec {q : Rat} (hq : 0 < q) :
    (10 : Rat) ^ (pointOf q - 1) ≤ q ∧ q < 10 ^ pointOf q := by
  unfold pointOf
  by_cases hone : 1 ≤ q
  · rw [if_pos hone]
    have hfloor : 1 ≤ q.floor := Rat.le_floor_iff.mpr (by exact_mod_cast hone)
    obtain ⟨hbelow, habove⟩ := toNat_floor_spec hq.le
    obtain ⟨hlow, hhigh⟩ := length_spec (n := q.floor.toNat) (by omega)
    exact ⟨hlow.trans hbelow, habove.trans_le hhigh⟩
  · rw [if_neg hone]
    have hinverse : 1 < 1 / q := (one_lt_div hq).mpr (not_le.mp hone)
    have hceil : 1 < (1 / q).ceil := Rat.lt_ceil_iff.mpr (by exact_mod_cast hinverse)
    have hcast : (((1 / q).ceil.toNat - 1 : Nat) : Rat) = (1 / q).ceil - 1 := by
      rw [Nat.cast_sub (by omega)]
      have : ((1 / q).ceil.toNat : Rat) = ((1 / q).ceil : Int) := by
        exact_mod_cast Int.toNat_of_nonneg (by omega : 0 ≤ (1 / q).ceil)
      rw [this, Nat.cast_one]
    obtain ⟨hlow, hhigh⟩ := length_spec (n := (1 / q).ceil.toNat - 1) (by omega)
    rw [hcast] at hlow hhigh
    have hpos : (0 : Rat) < 10 ^ (Decimal.length ((1 / q).ceil.toNat - 1) : Int) := by positivity
    constructor
    · have hle : 1 / q ≤ 10 ^ (Decimal.length ((1 / q).ceil.toNat - 1) : Int) := by
        have hceil' : 1 / q ≤ (1 / q).ceil := Rat.le_ceil
        linarith
      rw [sub_sub_cancel_left, zpow_neg]
      exact (inv_le_comm₀ hq hpos).mp (by rwa [← one_div])
    · have hless : (10 : Rat) ^ (Decimal.length ((1 / q).ceil.toNat - 1) - 1 : Int) < 1 / q := by
        have hceil' : ((1 / q).ceil : Rat) < 1 / q + 1 := Rat.ceil_lt
        linarith
      rw [← neg_sub, zpow_neg]
      exact (lt_inv_comm₀ (by positivity) hq).mp (by rwa [← one_div])

/-! ## The search -/

section Search

variable {tie : Tie} {q : Rat} {basin : Basin} {point : Int} {count n : Nat}

theorem choose_eq (tie : Tie) (below : Nat) :
    tie.choose below = below ∨ tie.choose below = below + 1 := by
  cases tie with
  | up => exact .inr rfl
  | even =>
      rcases Nat.mod_two_eq_zero_or_one below with h | h
      · exact .inl (by rw [Tie.choose, h, Nat.add_zero])
      · exact .inr (by rw [Tie.choose, h])

/-- A candidate is one of the two decimals around the number, and reads back. -/
theorem candidate_spec (h : candidate tie q basin point count = some n) :
    basin.contains (n * tenTo (point - count)) = true ∧
      n ≤ (q / tenTo (point - count)).floor.toNat + 1 := by
  unfold candidate at h
  dsimp only at h
  generalize (q / tenTo (point - count)).floor.toNat = below at h ⊢
  split at h
  · rename_i hlower hupper
    have hn : n = below ∨ n = below + 1 := by
      split at h
      · exact .inl (Option.some.inj h).symm
      · split at h
        · exact .inr (Option.some.inj h).symm
        · rw [← Option.some.inj h]
          exact choose_eq tie below
    rcases hn with rfl | rfl
    · exact ⟨hlower, Nat.le_succ _⟩
    · exact ⟨hupper, le_refl _⟩
  · rename_i hlower _
    cases h
    exact ⟨hlower, Nat.le_succ _⟩
  · rename_i _ hupper
    cases h
    exact ⟨hupper, le_refl _⟩
  · cases h

/-- A candidate has no more digits than asked for, or it is the power of ten after those. -/
theorem candidate_le (hq : 0 < q) (hpoint : q < 10 ^ point)
    (h : candidate tie q basin point count = some n) : n ≤ 10 ^ count := by
  have hunit : (0 : Rat) < tenTo (point - count) := by
    rw [tenTo_eq]
    positivity
  have hbelow := (toNat_floor_spec (div_pos hq hunit).le).1
  have hless : q / tenTo (point - count) < 10 ^ count := by
    rw [div_lt_iff₀ hunit, tenTo_eq, ← zpow_natCast, ← zpow_add₀ (by norm_num), add_sub_cancel]
    exact hpoint
  have hbelow' : (q / tenTo (point - count)).floor.toNat < 10 ^ count := by
    exact_mod_cast hbelow.trans_lt hless
  exact (candidate_spec h).2.trans hbelow'

theorem exists_candidate
    (h : basin.contains ((q / tenTo (point - count)).floor.toNat * tenTo (point - count)) = true ∨
      basin.contains (((q / tenTo (point - count)).floor.toNat + 1 : Nat) *
        tenTo (point - count)) = true) :
    ∃ n, candidate tie q basin point count = some n := by
  unfold candidate
  dsimp only
  split
  · split
    · exact ⟨_, rfl⟩
    · split <;> exact ⟨_, rfl⟩
  · exact ⟨_, rfl⟩
  · exact ⟨_, rfl⟩
  · rename_i hlower hupper
    rw [hlower, hupper] at h
    simp at h

theorem search_spec (more start : Nat)
    (h : ∃ c n, start ≤ c ∧ c < start + more ∧ candidate tie q basin point c = some n) :
    ∃ n c, search tie q basin point more start = (n, c) ∧ c < start + more ∧
      candidate tie q basin point c = some n := by
  -- a number of digits that does not do leaves one fewer to try
  induction more generalizing start with
  | zero =>
      obtain ⟨c, _, hlow, hhigh, _⟩ := h
      omega
  | succ more ih =>
      rw [search]
      cases hstart : candidate tie q basin point start with
      | some n => exact ⟨n, start, rfl, by omega, hstart⟩
      | none =>
          obtain ⟨c, n, hlow, hhigh, hc⟩ := h
          have hne : start ≠ c := by
            rintro rfl
            rw [hstart] at hc
            cases hc
          obtain ⟨n', c', hsearch, hless, hc'⟩ := ih (start + 1) ⟨c, n, by omega, by omega, hc⟩
          exact ⟨n', c', hsearch, by omega, hc'⟩

end Search

/-- Seventeen digits are always enough. -/
theorem exists_candidate_of_seventeen (tie : Tie) {m : Nat} {e : Int} (h : Canonical m e)
    (hm : 0 < m) :
    ∃ n, candidate tie (m * 2 ^ e) (basinOf m e) (pointOf (m * 2 ^ e)) 17 = some n := by
  have hq : (0 : Rat) < m * 2 ^ e := by positivity
  have hunit : (0 : Rat) < tenTo (pointOf (m * 2 ^ e) - (17 : Nat)) := by
    rw [tenTo_eq]
    positivity
  have hlarge : tenTo (pointOf (m * 2 ^ e) - (17 : Nat)) * 10 ^ 16 ≤ m * 2 ^ e := by
    refine le_of_eq_of_le ?_ (pointOf_spec hq).1
    rw [tenTo_eq, ← zpow_natCast, ← zpow_add₀ (by norm_num)]
    congr 1
    omega
  obtain ⟨hbelow, habove⟩ := toNat_floor_spec (div_pos hq hunit).le
  rw [le_div_iff₀ hunit] at hbelow
  rw [div_lt_iff₀ hunit] at habove
  apply exists_candidate
  generalize tenTo (pointOf (m * 2 ^ e) - (17 : Nat)) = unit at hunit hlarge hbelow habove ⊢
  generalize (m * 2 ^ e / unit).floor.toNat = below at hbelow habove ⊢
  push_cast
  -- the nearer one of the two is at most half a unit away
  rcases le_total (m * 2 ^ e - below * unit) (unit / 2) with hnear | hfar
  · refine .inl (basin_contains_of_near h ?_)
    rw [abs_sub_comm, abs_of_nonneg (by linarith)]
    linarith
  · refine .inr (basin_contains_of_near h ?_)
    rw [abs_of_nonneg (by linarith)]
    linarith

/-! ## The digits -/

def Digits.value (d : Digits) : Rat :=
  digitsToNat d.digits * 10 ^ (d.point - d.digits.length : Int)

/-- Digits that tell a positive number: a few of them, without a zero before them, in its basin. -/
structure Digits.Tell (d : Digits) (m : Nat) (e : Int) : Prop where
  digits : IsDigits d.digits
  unpadded : d.digits.head? ≠ some '0'
  few : digitsToNat d.digits ≤ 10 ^ 17
  basin : (basinOf m e).contains d.value = true

namespace Digits.Tell

variable {d : Digits} {m : Nat} {e : Int}

theorem toDigits_eq (h : d.Tell m e) : Nat.toDigits 10 (digitsToNat d.digits) = d.digits :=
  (Text.isDecimal_iff.mp ⟨h.digits, rfl, fun hzero => absurd hzero h.unpadded⟩).symm

theorem length_eq (h : d.Tell m e) : Decimal.length (digitsToNat d.digits) = d.digits.length := by
  rw [Decimal.length, h.toDigits_eq]

theorem digitsToNat_pos (h : d.Tell m e) : 0 < digitsToNat d.digits := by
  by_contra hzero
  have hdigits := h.toDigits_eq
  rw [Nat.eq_zero_of_not_pos hzero] at hdigits
  exact h.unpadded (by rw [← hdigits]; rfl)

theorem length_between (h : d.Tell m e) : 1 ≤ d.digits.length ∧ d.digits.length ≤ 18 := by
  refine ⟨List.length_pos_iff.mpr h.digits.1, ?_⟩
  rw [← h.length_eq]
  exact (Nat.length_toDigits_le_iff (by decide) (by decide)).mpr (h.few.trans_lt (by decide))

theorem value_between (h : d.Tell m e) :
    (10 : Rat) ^ (d.point - 1) ≤ d.value ∧ d.value < 10 ^ d.point := by
  obtain ⟨hlow, hhigh⟩ := length_spec h.digitsToNat_pos
  rw [h.length_eq] at hlow hhigh
  have hunit : (0 : Rat) < 10 ^ (d.point - d.digits.length : Int) := by positivity
  rw [Digits.value]
  constructor
  · calc (10 : Rat) ^ (d.point - 1) = 10 ^ (d.digits.length - 1 : Int) *
          10 ^ (d.point - d.digits.length : Int) := by
            rw [← zpow_add₀ (by norm_num)]
            congr 1
            ring
      _ ≤ _ := by gcongr
  · calc (digitsToNat d.digits : Rat) * 10 ^ (d.point - d.digits.length : Int)
        < 10 ^ (d.digits.length : Int) * 10 ^ (d.point - d.digits.length : Int) := by
          gcongr
          linarith
      _ = 10 ^ d.point := by
          rw [← zpow_add₀ (by norm_num)]
          congr 1
          ring

theorem point_between (h : d.Tell m e) (hcanonical : Canonical m e) (hm : 0 < m) :
    -323 ≤ d.point ∧ d.point ≤ 309 := by
  obtain ⟨hlow, hhigh⟩ := h.value_between
  obtain ⟨hleast, hmost⟩ := basin_range hcanonical hm h.basin
  have hten : (1 : Rat) < 10 := by norm_num
  constructor
  · have hpowers : 2 ^ 1075 < 10 ^ 324 := by decide +kernel
    have hsmall : (10 : Rat) ^ (-324 : Int) < 2 ^ (-1075 : Int) := by
      rw [zpow_neg, zpow_neg]
      exact inv_strictAnti₀ (by positivity) (by exact_mod_cast hpowers)
    have := (zpow_lt_zpow_iff_right₀ hten).mp ((hsmall.trans_le hleast).trans hhigh)
    omega
  · have hpowers : 2 ^ 1024 < 10 ^ 309 := by decide +kernel
    have hlarge : limit < (10 : Rat) ^ (309 : Int) := by
      rw [limit]
      exact_mod_cast hpowers
    have := (zpow_lt_zpow_iff_right₀ hten).mp ((hlow.trans_lt hmost).trans hlarge)
    omega

end Digits.Tell

theorem exists_trailing_zeros (digits : List Char) :
    ∃ k, digits = withoutTrailingZeros digits ++ zeros k := by
  refine ⟨(digits.reverse.takeWhile (· = '0')).length, ?_⟩
  have hzeros : digits.reverse.takeWhile (· = '0') =
      zeros (digits.reverse.takeWhile (· = '0')).length := by
    refine List.eq_replicate_iff.mpr ⟨rfl, ?_⟩
    intro c hc
    simpa using List.mem_takeWhile_imp hc
  have hsplit := List.takeWhile_append_dropWhile (p := (· = '0')) (l := digits.reverse)
  rw [hzeros] at hsplit
  calc digits = digits.reverse.reverse := (List.reverse_reverse digits).symm
    _ = withoutTrailingZeros digits ++ (zeros _).reverse := by
        rw [← hsplit, List.reverse_append, withoutTrailingZeros]
    _ = _ := by rw [zeros, List.reverse_replicate]

theorem withoutTrailingZeros_toDigits {n : Nat} (hn : 0 < n) :
    IsDigits (withoutTrailingZeros (Nat.toDigits 10 n)) ∧
      (withoutTrailingZeros (Nat.toDigits 10 n)).head? ≠ some '0' ∧
      ∃ k, Nat.toDigits 10 n = withoutTrailingZeros (Nat.toDigits 10 n) ++ zeros k ∧
        n = digitsToNat (withoutTrailingZeros (Nat.toDigits 10 n)) * 10 ^ k := by
  obtain ⟨k, hk⟩ := exists_trailing_zeros (Nat.toDigits 10 n)
  have hhead := Text.head?_toDigits hn
  obtain ⟨hne, hdigits⟩ := Text.isDigits_toDigits n
  generalize withoutTrailingZeros (Nat.toDigits 10 n) = digits at hk ⊢
  have hsome : digits ≠ [] := by
    rintro rfl
    rw [hk] at hne hhead
    cases k with
    | zero => exact hne rfl
    | succ k => exact hhead rfl
  refine ⟨⟨hsome, ?_⟩, ?_, k, hk, ?_⟩
  · intro c hc
    exact hdigits c (hk ▸ List.mem_append_left _ hc)
  · rwa [hk, List.head?_append_of_ne_nil _ hsome] at hhead
  · calc n = Nat.ofDigitChars 10 (digits ++ zeros k) 0 := by
          rw [← hk, Nat.ofDigitChars_ten_toDigits]
      _ = 10 ^ k * digitsToNat digits := by
          rw [Nat.ofDigitChars_append, zeros, Nat.ofDigitChars_replicate_zero]
          rfl
      _ = digitsToNat digits * 10 ^ k := Nat.mul_comm _ _

/-- The zeros at the end count for the place of the point only. -/
theorem value_withoutTrailingZeros {n : Nat} (hn : 0 < n) (point : Int) (count : Nat) :
    Digits.value ⟨withoutTrailingZeros (Nat.toDigits 10 n),
      point + ((Nat.toDigits 10 n).length - count)⟩ = n * tenTo (point - count) := by
  obtain ⟨_, _, k, hzeros, hvalue⟩ := withoutTrailingZeros_toDigits hn
  have hlength := congrArg List.length hzeros
  rw [List.length_append, zeros, List.length_replicate] at hlength
  rw [Digits.value, tenTo_eq]
  dsimp only
  conv_rhs => rw [hvalue]
  rw [hlength]
  push_cast
  rw [mul_assoc, ← zpow_natCast, ← zpow_add₀ (by norm_num)]
  congr 2
  ring

theorem shortest_tell (tie : Tie) {m : Nat} {e : Int} (h : Canonical m e) (hm : 0 < m) :
    (shortest tie m e).Tell m e := by
  have hq : (0 : Rat) < m * 2 ^ e := by positivity
  obtain ⟨n₀, hseventeen⟩ := exists_candidate_of_seventeen tie h hm
  obtain ⟨n, c, hsearch, hc, hcandidate⟩ :=
    search_spec 17 1 ⟨17, n₀, by decide, by decide, hseventeen⟩
  obtain ⟨hbasin, _⟩ := candidate_spec hcandidate
  have hpos : 0 < n := by
    have hproduct := pos_of_basin_contains hm hbasin
    by_contra hzero
    rw [Nat.eq_zero_of_not_pos hzero, Nat.cast_zero, zero_mul] at hproduct
    exact lt_irrefl _ hproduct
  have hfew : n ≤ 10 ^ 17 :=
    (candidate_le hq (pointOf_spec hq).2 hcandidate).trans
      (Nat.pow_le_pow_right (by decide) (by omega))
  obtain ⟨hdigits, hhead, k, _, hvalue⟩ := withoutTrailingZeros_toDigits hpos
  have hshortest : shortest tie m e = ⟨withoutTrailingZeros (Nat.toDigits 10 n),
      pointOf (m * 2 ^ e) + ((Nat.toDigits 10 n).length - c)⟩ := by
    rw [shortest]
    dsimp only
    rw [shifted_eq, Int.cast_natCast, hsearch]
  rw [hshortest]
  refine ⟨hdigits, hhead, ?_, ?_⟩
  · refine le_trans ?_ hfew
    conv_rhs => rw [hvalue]
    exact Nat.le_mul_of_pos_right _ (by positivity)
  · rw [value_withoutTrailingZeros hpos]
    exact hbasin

end RehashChart.Binary64
