import RehashChart.Proofs.Binary64.Arithmetic

/-! # How far several roundings can lead

Every rounding keeps a number up to one part in `2 ^ 53`, or up to half the least unit if the number
is that small. Counting the roundings of either kind bounds what a product or a quotient is off by.
-/

namespace RehashChart.Binary64

/-! ## Equal numbers -/

theorem exponent_le_of_eq {m n : Nat} {e f : Int} (hm : Canonical m e) (hn : Canonical n f)
    (h : (m : Rat) * 2 ^ e = n * 2 ^ f) : f ≤ e := by
  by_contra hless
  have hfull : (fullSignificand : Rat) ≤ n := by
    have := hm.2.1
    exact_mod_cast hn.2.2.2.resolve_right (by omega)
  have hm' : (m : Rat) < significands := by exact_mod_cast hm.1
  have hpow : (0 : Rat) < 2 ^ e := by positivity
  have hmore : (significands : Rat) * 2 ^ e ≤ n * 2 ^ f := by
    calc (significands : Rat) * 2 ^ e = fullSignificand * 2 ^ (e + 1) := by
          rw [zpow_add_one₀ two_ne_zero]
          norm_num [significands, fullSignificand]
          ring
      _ ≤ n * 2 ^ f := by
          gcongr
          · exact one_le_two
          · omega
  have := mul_lt_mul_of_pos_right hm' hpow
  linarith

theorem HasValue.eq_of_sign {x y : Binary64} {q : Rat} (hx : x.HasValue q) (hy : y.HasValue q)
    (hsign : x.isNegative = y.isNegative) : x = y := by
  obtain ⟨s, m, e, hc, rfl, hxq⟩ := hx.eq_finite
  obtain ⟨t, n, f, hd, rfl, hyq⟩ := hy.eq_finite
  cases (hsign : s = t)
  rw [toRat_finite] at hxq hyq
  have hvalue : (m : Rat) * 2 ^ e = n * 2 ^ f := by
    have hsame := hxq.trans hyq.symm
    cases s with
    | false => simpa using hsame
    | true => simpa using hsame
  have hexponent : e = f :=
    le_antisymm (exponent_le_of_eq hd hc hvalue.symm) (exponent_le_of_eq hc hd hvalue)
  subst hexponent
  have hmantissa : m = n := by
    exact_mod_cast mul_right_cancel₀ (zpow_ne_zero e (two_ne_zero' Rat)) hvalue
  subst hmantissa
  rfl

/-! ## Roundings -/

theorem RoundsTo.unique {q r s : Rat} (hr : RoundsTo q r) (hs : RoundsTo q s) : r = s :=
  le_antisymm (hr.mono hs le_rfl) (hs.mono hr le_rfl)

/-- What rounding to 53 bits leaves of a number at least. -/
def kept : Rat := 1 - 1 / 2 ^ 53

def halfUnit : Rat := 2 ^ (-1075 : Int)

theorem kept_pos : 0 < kept := by norm_num [kept]

theorem kept_le_one : kept ≤ 1 := by norm_num [kept]

theorem halfUnit_pos : 0 < halfUnit := zpow_pos two_pos _

/-- One number is another one after `k` roundings, `j` of them perhaps of very small numbers. -/
structure Close (k j : Nat) (q r : Rat) : Prop where
  low : q * kept ^ k ≤ r + j * halfUnit
  high : r * kept ^ k ≤ q + j * halfUnit

theorem RoundsTo.error_le {q r : Rat} (h : RoundsTo q r) (hq : 0 ≤ q) :
    |r - q| ≤ q / 2 ^ 53 + halfUnit := by
  have hhalf := halfUnit_pos
  rcases hq.eq_or_lt with rfl | hpos
  · rw [h.exact representable_zero]
    simpa using hhalf.le
  · obtain ⟨m, e, hnearest, rfl⟩ := h.exists_nearest hpos
    rcases hnearest.full with hfull | rfl
    · exact (hnearest.error hfull).trans (le_add_of_nonneg_right hhalf.le)
    · have hpow : (0 : Rat) < 2 ^ (-1074 : Int) := by positivity
      have hlow := hnearest.significand.low
      have hhigh := hnearest.significand.high
      rw [le_div_iff₀ hpow] at hlow
      rw [div_le_iff₀ hpow] at hhigh
      have hunit : (2 : Rat) ^ (-1074 : Int) = 2 * halfUnit := by
        rw [halfUnit, ← zpow_one_add₀ two_ne_zero]
        norm_num
      have hpart : 0 ≤ q / 2 ^ 53 := by positivity
      rw [hunit] at hlow hhigh ⊢
      rw [abs_le]
      constructor <;> linarith

theorem RoundsTo.close {q r : Rat} (h : RoundsTo q r) (hq : 0 ≤ q) : Close 1 1 q r := by
  have herror := abs_le.mp (h.error_le hq)
  have hr := h.nonneg hq
  have hhalf := halfUnit_pos
  constructor
  · rw [pow_one, kept, Nat.cast_one]
    linarith
  · rw [pow_one, kept, Nat.cast_one]
    nlinarith

theorem RoundsTo.close_of_large {q r : Rat} (h : RoundsTo q r)
    (hq : q = 0 ∨ (2 : Rat) ^ (-1022 : Int) ≤ q) : Close 1 0 q r := by
  rcases hq with rfl | hq
  · rw [h.exact representable_zero]
    constructor <;> simp
  · have hpos : 0 < q := lt_of_lt_of_le (by positivity) hq
    have herror := abs_le.mp (h.error hq)
    constructor
    · rw [pow_one, kept, Nat.cast_zero]
      linarith
    · rw [pow_one, kept, Nat.cast_zero]
      nlinarith

namespace Close

variable {j k l i : Nat} {p q r s x y : Rat}

theorem symm (h : Close k j q r) : Close k j r q := ⟨h.high, h.low⟩

theorem mono (h : Close k j q r) (hk : k ≤ l) (hj : j ≤ i) (hq : 0 ≤ q) (hr : 0 ≤ r) :
    Close l i q r := by
  have hhalf := halfUnit_pos
  have hpow : kept ^ l ≤ kept ^ k := pow_le_pow_of_le_one kept_pos.le kept_le_one hk
  have hunits : (j : Rat) * halfUnit ≤ i * halfUnit := by gcongr
  constructor
  · exact ((mul_le_mul_of_nonneg_left hpow hq).trans h.low).trans (by gcongr)
  · exact ((mul_le_mul_of_nonneg_left hpow hr).trans h.high).trans (by gcongr)

theorem trans (hqr : Close k j q r) (hrs : Close l i r s) : Close (k + l) (j + i) q s := by
  have hhalf := halfUnit_pos
  have hk : (0 : Rat) < kept ^ k := pow_pos kept_pos k
  have hl : (0 : Rat) < kept ^ l := pow_pos kept_pos l
  have hk' : kept ^ k ≤ 1 := pow_le_one₀ kept_pos.le kept_le_one
  have hl' : kept ^ l ≤ 1 := pow_le_one₀ kept_pos.le kept_le_one
  have hj : 0 ≤ j * halfUnit := by positivity
  have hi : 0 ≤ i * halfUnit := by positivity
  constructor
  · calc q * kept ^ (k + l) = q * kept ^ k * kept ^ l := by rw [pow_add, mul_assoc]
      _ ≤ (r + j * halfUnit) * kept ^ l := mul_le_mul_of_nonneg_right hqr.low hl.le
      _ = r * kept ^ l + j * halfUnit * kept ^ l := add_mul _ _ _
      _ ≤ s + i * halfUnit + j * halfUnit :=
          add_le_add hrs.low (mul_le_of_le_one_right hj hl')
      _ = s + (j + i : Nat) * halfUnit := by
          push_cast
          ring
  · calc s * kept ^ (k + l) = s * kept ^ l * kept ^ k := by rw [pow_add]; ring
      _ ≤ (r + i * halfUnit) * kept ^ k := mul_le_mul_of_nonneg_right hrs.high hk.le
      _ = r * kept ^ k + i * halfUnit * kept ^ k := add_mul _ _ _
      _ ≤ q + j * halfUnit + i * halfUnit :=
          add_le_add hqr.high (mul_le_of_le_one_right hi hk')
      _ = q + (j + i : Nat) * halfUnit := by
          push_cast
          ring

theorem mul (hp : Close k 0 p x) (hq : Close l 0 q y) (hp0 : 0 ≤ p) (hx0 : 0 ≤ x) (hq0 : 0 ≤ q)
    (hy0 : 0 ≤ y) : Close (k + l) 0 (p * q) (x * y) := by
  have hk : (0 : Rat) < kept ^ k := pow_pos kept_pos k
  have hl : (0 : Rat) < kept ^ l := pow_pos kept_pos l
  obtain ⟨hp₁, hp₂⟩ := hp
  obtain ⟨hq₁, hq₂⟩ := hq
  rw [Nat.cast_zero, zero_mul, add_zero] at hp₁ hp₂ hq₁ hq₂
  constructor
  · rw [Nat.cast_zero, zero_mul, add_zero]
    calc p * q * kept ^ (k + l) = p * kept ^ k * (q * kept ^ l) := by rw [pow_add]; ring
      _ ≤ x * y := mul_le_mul hp₁ hq₁ (by positivity) hx0
  · rw [Nat.cast_zero, zero_mul, add_zero]
    calc x * y * kept ^ (k + l) = x * kept ^ k * (y * kept ^ l) := by rw [pow_add]; ring
      _ ≤ p * q := mul_le_mul hp₂ hq₂ (by positivity) hp0

/-- Dividing by a number of at least one makes what a number is off by no larger. -/
theorem div_right (h : Close k j p x) (hy : 1 ≤ y) : Close k j (p / y) (x / y) := by
  have hhalf := halfUnit_pos
  have hy0 : 0 < y := lt_of_lt_of_le one_pos hy
  have hj : j * halfUnit / y ≤ j * halfUnit := div_le_self (by positivity) hy
  constructor
  · calc p / y * kept ^ k = p * kept ^ k / y := by ring
      _ ≤ (x + j * halfUnit) / y := div_le_div_of_nonneg_right h.low hy0.le
      _ = x / y + j * halfUnit / y := add_div _ _ _
      _ ≤ x / y + j * halfUnit := by gcongr
  · calc x / y * kept ^ k = x * kept ^ k / y := by ring
      _ ≤ (p + j * halfUnit) / y := div_le_div_of_nonneg_right h.high hy0.le
      _ = p / y + j * halfUnit / y := add_div _ _ _
      _ ≤ p / y + j * halfUnit := by gcongr

theorem div_left (h : Close k 0 q y) (hp : 0 ≤ p) (hq : 0 < q) (hy : 0 < y) :
    Close k 0 (p / q) (p / y) := by
  obtain ⟨h₁, h₂⟩ := h
  rw [Nat.cast_zero, zero_mul, add_zero] at h₁ h₂
  constructor
  · rw [Nat.cast_zero, zero_mul, add_zero, div_mul_eq_mul_div, div_le_div_iff₀ hq hy]
    nlinarith
  · rw [Nat.cast_zero, zero_mul, add_zero, div_mul_eq_mul_div, div_le_div_iff₀ hy hq]
    nlinarith

/-- Six roundings at most, three of them of very small numbers. -/
theorem error_le (h : Close k j q r) (hk : k ≤ 6) (hj : j ≤ 3) (hq : 0 ≤ q) (hr : 0 ≤ r) :
    |r - q| ≤ q / 2 ^ 50 + 2 ^ (-1073 : Int) := by
  have hhalf := halfUnit_pos
  have hsix : (1 : Rat) - 6 / 2 ^ 53 ≤ kept ^ k := by
    calc (1 : Rat) - 6 / 2 ^ 53 ≤ kept ^ 6 := by norm_num [kept]
      _ ≤ kept ^ k := pow_le_pow_of_le_one kept_pos.le kept_le_one hk
  have hthree : j * halfUnit ≤ 3 * halfUnit := by
    gcongr
    exact_mod_cast hj
  have hunit : (2 : Rat) ^ (-1073 : Int) = 4 * halfUnit := by
    have hfour : (4 : Rat) = 2 ^ (2 : Int) := by norm_num
    rw [halfUnit, hfour, ← zpow_add₀ two_ne_zero]
    norm_num
  have hlow : q * (1 - 6 / 2 ^ 53) ≤ r + 3 * halfUnit :=
    ((mul_le_mul_of_nonneg_left hsix hq).trans h.low).trans (by gcongr)
  have hhigh : r * (1 - 6 / 2 ^ 53) ≤ q + 3 * halfUnit :=
    ((mul_le_mul_of_nonneg_left hsix hr).trans h.high).trans (by gcongr)
  rw [hunit, abs_le]
  constructor
  · linarith
  · linarith

end Close

/-! ## Magnitudes -/

/-- A number without a minus sign is exactly `q`. -/
structure IsMagnitude (x : Binary64) (q : Rat) : Prop where
  value : x.HasValue q
  sign : x.isNegative = false

theorem isNegative_ofQuotient (s : Bool) (num den : Nat) :
    (ofQuotient s num den).isNegative = s := by
  unfold ofQuotient
  split
  · rfl
  · dsimp only
    unfold ofParts
    split
    · rfl
    · split <;> rfl

theorem isNegative_ofRat {q : Rat} (hq : 0 ≤ q) : (ofRat false q).isNegative = false := by
  rw [ofRat, isNegative_ofQuotient]
  split
  · rfl
  · exact decide_eq_false (not_lt.mpr (Rat.num_nonneg.mpr hq))

theorem exists_isMagnitude_ofRat {q high : Rat} (hq : 0 ≤ q) (hhigh : Representable high)
    (h : q ≤ high) : ∃ r, RoundsTo q r ∧ (ofRat false q).IsMagnitude r := by
  obtain ⟨r, hvalue, _⟩ := ofRat_between false representable_zero hhigh hq h
  exact ⟨r, roundsTo_of_hasValue hvalue, hvalue, isNegative_ofRat hq⟩

namespace IsMagnitude

variable {x y : Binary64} {p q r : Rat}

theorem nonneg (h : x.IsMagnitude p) : 0 ≤ p := by
  obtain ⟨s, m, e, hc, rfl, rfl⟩ := h.value.eq_finite
  cases (h.sign : s = false)
  rw [toRat_finite]
  simp only [Bool.false_eq_true, if_false, Int.cast_natCast]
  positivity

theorem mul_eq (hx : x.IsMagnitude p) (hy : y.IsMagnitude q) : x * y = ofRat false (p * q) := by
  obtain ⟨⟨s, m, e, hc, rfl, rfl⟩, hs⟩ := And.intro hx.value.eq_finite hx.sign
  obtain ⟨⟨t, n, f, hd, rfl, rfl⟩, ht⟩ := And.intro hy.value.eq_finite hy.sign
  cases (hs : s = false)
  cases (ht : t = false)
  rfl

theorem div_eq (hx : x.IsMagnitude p) (hy : y.IsMagnitude q) (hq : q ≠ 0) :
    x / y = ofRat false (p / q) := by
  obtain ⟨⟨s, m, e, hc, rfl, rfl⟩, hs⟩ := And.intro hx.value.eq_finite hx.sign
  obtain ⟨⟨t, n, f, hd, rfl, rfl⟩, ht⟩ := And.intro hy.value.eq_finite hy.sign
  cases (hs : s = false)
  cases (ht : t = false)
  exact if_neg hq

theorem exists_mul (hx : x.IsMagnitude p) (hy : y.IsMagnitude q) {high : Rat}
    (hhigh : Representable high) (h : p * q ≤ high) :
    ∃ r, RoundsTo (p * q) r ∧ (x * y).IsMagnitude r := by
  rw [hx.mul_eq hy]
  exact exists_isMagnitude_ofRat (mul_nonneg hx.nonneg hy.nonneg) hhigh h

theorem exists_div (hx : x.IsMagnitude p) (hy : y.IsMagnitude q) (hq : 1 ≤ q) :
    ∃ r, RoundsTo (p / q) r ∧ (x / y).IsMagnitude r := by
  have hq0 : 0 < q := lt_of_lt_of_le one_pos hq
  rw [hx.div_eq hy hq0.ne']
  exact exists_isMagnitude_ofRat (div_nonneg hx.nonneg hq0.le) hx.value.representable
    (div_le_self hx.nonneg hq)

end IsMagnitude

end RehashChart.Binary64
