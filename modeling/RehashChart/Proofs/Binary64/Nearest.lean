import Mathlib.Algebra.Order.Field.Power
import Mathlib.Data.Rat.Floor
import Mathlib.Tactic.FieldSimp
import Mathlib.Tactic.Linarith
import Mathlib.Tactic.NormNum
import Mathlib.Tactic.Positivity
import Mathlib.Tactic.Ring
import RehashChart.Binary64.Basic

/-! # The nearest number

Rounding a positive rational number keeps the order, leaves alone what has a significand of 53 bits,
and is off by at most half a unit of the last digit.
-/

namespace RehashChart.Binary64

/-! ## Scaled numbers -/

theorem zpow_of_nonneg {base : Rat} {e : Int} (h : 0 ≤ e) : base ^ e = base ^ e.toNat := by
  rw [← zpow_natCast, Int.toNat_of_nonneg h]

theorem zpow_of_neg {base : Rat} {e : Int} (h : ¬0 ≤ e) : base ^ e = (base ^ (-e).toNat)⁻¹ := by
  rw [← zpow_natCast, ← zpow_neg, Int.toNat_of_nonneg (by omega), neg_neg]

theorem scaled_eq (base : Nat) (n e : Int) : scaled base n e = n * (base : Rat) ^ e := by
  unfold scaled
  split
  · rename_i he
    rw [zpow_of_nonneg he, Nat.pow_eq]
    push_cast
    rfl
  · rename_i he
    rw [zpow_of_neg he, Nat.pow_eq, Rat.mkRat_eq_div]
    push_cast
    rfl

theorem shifted_eq (n e : Int) : shifted n e = n * (2 : Rat) ^ e := scaled_eq 2 n e

theorem tenTo_eq (k : Int) : tenTo k = (10 : Rat) ^ k := by
  rw [tenTo, scaled_eq]
  push_cast
  rw [one_mul]

theorem scaledBy_eq (num : Nat) {den : Nat} (hden : 0 < den) (k : Int) :
    0 < (scaledBy num den k).2 ∧
      ((scaledBy num den k).1 : Rat) / (scaledBy num den k).2 = num / den / 2 ^ k := by
  unfold scaledBy
  split
  · rename_i hk
    refine ⟨Nat.mul_pos hden (Nat.pow_pos (by decide)), ?_⟩
    rw [zpow_of_nonneg hk, Nat.pow_eq]
    push_cast
    rw [div_div]
  · rename_i hk
    refine ⟨hden, ?_⟩
    rw [zpow_of_neg hk, Nat.pow_eq]
    push_cast
    rw [div_inv_eq_mul, div_mul_eq_mul_div]

/-- The power of two below a quotient, and the one above it. -/
theorem floorLog2_spec {num den : Nat} (hnum : 0 < num) (hden : 0 < den) :
    (2 : Rat) ^ floorLog2 num den ≤ num / den ∧
      (num : Rat) / den < 2 ^ (floorLog2 num den + 1) := by
  have hd : (0 : Rat) < den := by exact_mod_cast hden
  have hnumlow : (2 : Rat) ^ num.log2 ≤ num := by exact_mod_cast Nat.log2_self_le hnum.ne'
  have hnumhigh : (num : Rat) < 2 ^ (num.log2 + 1) := by exact_mod_cast Nat.lt_log2_self
  have hdenlow : (2 : Rat) ^ den.log2 ≤ den := by exact_mod_cast Nat.log2_self_le hden.ne'
  have hdenhigh : (den : Rat) < 2 ^ (den.log2 + 1) := by exact_mod_cast Nat.lt_log2_self
  have hlow : (2 : Rat) ^ ((num.log2 : Int) - den.log2 - 1) ≤ num / den := by
    rw [le_div_iff₀ hd]
    calc (2 : Rat) ^ ((num.log2 : Int) - den.log2 - 1) * den
        ≤ 2 ^ ((num.log2 : Int) - den.log2 - 1) * 2 ^ (den.log2 + 1) := by gcongr
      _ = 2 ^ num.log2 := by
          rw [← zpow_natCast, ← zpow_natCast, ← zpow_add₀ two_ne_zero]
          congr 1
          push_cast
          ring
      _ ≤ num := hnumlow
  have hhigh : (num : Rat) / den < 2 ^ ((num.log2 : Int) - den.log2 + 1) := by
    rw [div_lt_iff₀ hd]
    calc (num : Rat) < 2 ^ (num.log2 + 1) := hnumhigh
      _ = 2 ^ ((num.log2 : Int) - den.log2 + 1) * 2 ^ den.log2 := by
          rw [← zpow_natCast, ← zpow_natCast, ← zpow_add₀ two_ne_zero]
          congr 1
          push_cast
          ring
      _ ≤ 2 ^ ((num.log2 : Int) - den.log2 + 1) * den := by gcongr
  obtain ⟨hpos, hquotient⟩ := scaledBy_eq num hden ((num.log2 : Int) - den.log2)
  have hp : (0 : Rat) < (scaledBy num den ((num.log2 : Int) - den.log2)).2 := by
    exact_mod_cast hpos
  have hk : (0 : Rat) < 2 ^ ((num.log2 : Int) - den.log2) := by positivity
  unfold floorLog2
  dsimp only
  split
  · rename_i hless
    have hbelow : (num : Rat) / den / 2 ^ ((num.log2 : Int) - den.log2) < 1 := by
      rw [← hquotient, div_lt_one hp]
      exact_mod_cast hless
    rw [div_lt_one hk] at hbelow
    exact ⟨hlow, by rwa [sub_add_cancel]⟩
  · rename_i hless
    have habove : 1 ≤ (num : Rat) / den / 2 ^ ((num.log2 : Int) - den.log2) := by
      rw [← hquotient, le_div_iff₀ hp, one_mul]
      exact_mod_cast Nat.le_of_not_lt hless
    rw [le_div_iff₀ hk, one_mul] at habove
    exact ⟨habove, hhigh⟩

/-! ## Nearest integers -/

structure IsNearest (x : Rat) (m : Nat) : Prop where
  low : (m : Rat) - 1 / 2 ≤ x
  high : x ≤ m + 1 / 2
  even : x = m - 1 / 2 ∨ x = m + 1 / 2 → m % 2 = 0

theorem nearestEven_spec (num : Nat) {den : Nat} (hden : 0 < den) :
    IsNearest (num / den) (nearestEven num den) := by
  have hd : (0 : Rat) < den := by exact_mod_cast hden
  have hsplit : (num : Rat) = den * (num / den : Nat) + (num % den : Nat) := by
    exact_mod_cast (Nat.div_add_mod num den).symm
  have hx : (num : Rat) / den = (num / den : Nat) + (num % den : Nat) / den := by
    rw [eq_comm, ← sub_eq_zero]
    field_simp
    linarith
  have hmod : ((num % den : Nat) : Rat) < den := by exact_mod_cast Nat.mod_lt num hden
  have hnonneg : (0 : Rat) ≤ (num % den : Nat) := by positivity
  rw [hx]
  unfold nearestEven
  dsimp only
  generalize num / den = q
  generalize num % den = r at hmod hnonneg
  split
  · rename_i hless
    have hhalf : (r : Rat) / den < 1 / 2 := by
      rw [div_lt_div_iff₀ hd two_pos]
      exact_mod_cast by omega
    have hzero : (0 : Rat) ≤ r / den := by positivity
    exact ⟨by linarith, by linarith, fun h => by rcases h with h | h <;> linarith⟩
  · split
    · rename_i hmore
      have hhalf : (1 : Rat) / 2 < r / den := by
        rw [div_lt_div_iff₀ two_pos hd]
        exact_mod_cast by omega
      have hone : (r : Rat) / den < 1 := (div_lt_one hd).mpr hmod
      refine ⟨?_, ?_, ?_⟩
      · push_cast
        linarith
      · push_cast
        linarith
      · intro h
        push_cast at h
        rcases h with h | h <;> linarith
    · have hhalf : (r : Rat) / den = 1 / 2 := by
        rw [div_eq_div_iff hd.ne' two_ne_zero]
        exact_mod_cast by omega
      rw [hhalf]
      rcases Nat.mod_two_eq_zero_or_one q with hq | hq
      · rw [hq, Nat.add_zero]
        exact ⟨by linarith, le_refl _, fun _ => hq⟩
      · rw [hq]
        refine ⟨?_, ?_, fun _ => by omega⟩
        · push_cast
          linarith
        · push_cast
          linarith

namespace IsNearest

variable {x y : Rat} {m n : Nat}

theorem mono (hx : IsNearest x m) (hy : IsNearest y n) (h : x ≤ y) : m ≤ n := by
  by_contra hlt
  have hnext : ((n + 1 : Nat) : Rat) ≤ m := by exact_mod_cast Nat.lt_of_not_le hlt
  push_cast at hnext
  have hm : (m : Rat) = n + 1 := by linarith [hx.low, hy.high]
  -- both integers are half a unit away, so both are even
  have hxeven := hx.even (.inl (by linarith [hx.low, hy.high]))
  have hyeven := hy.even (.inr (by linarith [hx.low, hy.high]))
  have hm' : m = n + 1 := by exact_mod_cast hm
  omega

theorem eq_of_near {k : Int} (h : IsNearest x m) (hnear : |x - k| < 1 / 2) : (m : Int) = k := by
  have hlow := h.low
  have hhigh := h.high
  rw [abs_lt] at hnear
  have h₁ : (m : Rat) < k + 1 := by linarith
  have h₂ : (k : Rat) < m + 1 := by linarith
  have h₁' : (m : Int) < k + 1 := by exact_mod_cast h₁
  have h₂' : k < (m : Int) + 1 := by exact_mod_cast h₂
  omega

theorem le_of_le (h : IsNearest x m) (hx : x ≤ n) : m ≤ n := by
  have hn : IsNearest (n : Rat) n :=
    ⟨by linarith, by linarith, fun h => by rcases h with h | h <;> linarith⟩
  exact h.mono hn hx

theorem ge_of_ge (h : IsNearest x m) (hx : (n : Rat) ≤ x) : n ≤ m := by
  have hn : IsNearest (n : Rat) n :=
    ⟨by linarith, by linarith, fun h => by rcases h with h | h <;> linarith⟩
  exact hn.mono h hx

end IsNearest

/-! ## Nearest numbers with 53 bits -/

theorem significands_mul (e : Int) : (significands : Rat) * 2 ^ e = 2 ^ (e + 53) := by
  rw [zpow_add₀ two_ne_zero, mul_comm]
  norm_num [significands]

theorem fullSignificand_mul (e : Int) : (fullSignificand : Rat) * 2 ^ e = 2 ^ (e + 52) := by
  rw [zpow_add₀ two_ne_zero, mul_comm]
  norm_num [fullSignificand]

/-- The significand and the exponent that a positive number is rounded to; the significand may be
one too large. -/
structure Nearest (q : Rat) (m : Nat) (e : Int) : Prop where
  least : -1074 ≤ e
  below : q < 2 ^ (e + 53)
  full : (2 : Rat) ^ (e + 52) ≤ q ∨ e = -1074
  significand : IsNearest (q / 2 ^ e) m

theorem nearest_of_quotient {num den : Nat} (hnum : 0 < num) (hden : 0 < den) :
    Nearest (num / den)
      (nearestEven (scaledBy num den (unitExponent num den)).1
        (scaledBy num den (unitExponent num den)).2)
      (unitExponent num den) := by
  obtain ⟨hlow, hhigh⟩ := floorLog2_spec hnum hden
  obtain ⟨hpos, hquotient⟩ := scaledBy_eq num hden (unitExponent num den)
  have hnearest := nearestEven_spec (scaledBy num den (unitExponent num den)).1 hpos
  rw [hquotient] at hnearest
  refine ⟨le_max_left _ _, hhigh.trans_le ?_, ?_, hnearest⟩
  · apply zpow_le_zpow_right₀ one_le_two
    unfold unitExponent
    omega
  · rcases le_total (floorLog2 num den - 52) (-1074) with h | h
    · exact .inr (max_eq_left h)
    · refine .inl ((zpow_le_zpow_right₀ one_le_two ?_).trans hlow)
      unfold unitExponent
      omega

namespace Nearest

variable {p q : Rat} {m n : Nat} {e f : Int}

theorem significand_le (h : Nearest q m e) : m ≤ significands := by
  refine h.significand.le_of_le ?_
  have hpow : (0 : Rat) < 2 ^ e := by positivity
  rw [div_le_iff₀ hpow, significands_mul]
  exact h.below.le

theorem fullSignificand_le (h : Nearest q m e) (he : e ≠ -1074) : fullSignificand ≤ m := by
  refine h.significand.ge_of_ge ?_
  have hpow : (0 : Rat) < 2 ^ e := by positivity
  rw [le_div_iff₀ hpow, fullSignificand_mul]
  exact h.full.resolve_right he

theorem exponent_le_of_lt {k : Int} (h : Nearest q m e) (hk : -1074 ≤ k)
    (hq : q < 2 ^ (k + 53)) : e ≤ k := by
  by_contra hlt
  have hfull := h.full.resolve_right (by omega)
  have := (zpow_lt_zpow_iff_right₀ (one_lt_two : (1 : Rat) < 2)).mp (hfull.trans_lt hq)
  omega

theorem exponent_le (hp : Nearest p m e) (hq : Nearest q n f) (h : p ≤ q) : e ≤ f :=
  hp.exponent_le_of_lt hq.least (h.trans_lt hq.below)

theorem mono (hp : Nearest p m e) (hq : Nearest q n f) (h : p ≤ q) :
    (m : Rat) * 2 ^ e ≤ n * 2 ^ f := by
  rcases (hp.exponent_le hq h).eq_or_lt with rfl | hlt
  · have hpow : (0 : Rat) < 2 ^ e := by positivity
    have hmn : m ≤ n := hp.significand.mono hq.significand (by gcongr)
    gcongr
  · have hm : (m : Rat) ≤ significands := by exact_mod_cast hp.significand_le
    have hn : (fullSignificand : Rat) ≤ n := by
      exact_mod_cast hq.fullSignificand_le (by have := hp.least; omega)
    calc (m : Rat) * 2 ^ e ≤ significands * 2 ^ e := by gcongr
      _ = fullSignificand * 2 ^ (e + 1) := by
          rw [zpow_add_one₀ two_ne_zero]
          norm_num [significands, fullSignificand]
          ring
      _ ≤ fullSignificand * 2 ^ f := by
          gcongr
          · exact one_le_two
          · omega
      _ ≤ n * 2 ^ f := by gcongr

/-- What is less than half a unit away from a multiple of the unit becomes that multiple. -/
theorem eq_of_near {c k : Int} (h : Nearest q m e) (hek : e ≤ k)
    (hnear : |q - c * 2 ^ k| < 2 ^ e / 2) : (m : Rat) * 2 ^ e = c * 2 ^ k := by
  have hunit : (0 : Rat) < 2 ^ e := by positivity
  have hpow : (2 : Rat) ^ k = 2 ^ (k - e).toNat * 2 ^ e := by
    rw [← zpow_of_nonneg (by omega : 0 ≤ k - e), ← zpow_add₀ two_ne_zero, sub_add_cancel]
  have hinteger : |q / 2 ^ e - (c * 2 ^ (k - e).toNat : Int)| < 1 / 2 := by
    have hsplit : q / 2 ^ e - (c * 2 ^ (k - e).toNat : Int) = (q - c * 2 ^ k) / 2 ^ e := by
      rw [hpow]
      push_cast
      field_simp
    rw [hsplit, abs_div, abs_of_pos hunit, div_lt_iff₀ hunit]
    linarith
  have hm : (m : Rat) = (c * 2 ^ (k - e).toNat : Int) := by
    exact_mod_cast h.significand.eq_of_near hinteger
  rw [hm, hpow]
  push_cast
  ring

theorem exact {c k : Int} (hc : c.natAbs < significands) (hk : -1074 ≤ k)
    (h : Nearest (c * 2 ^ k) m e) : (m : Rat) * 2 ^ e = c * 2 ^ k := by
  have hcr : (c : Rat) < significands := by exact_mod_cast by omega
  have hless : (c : Rat) * 2 ^ k < 2 ^ (k + 53) := by
    rw [← significands_mul]
    gcongr
  refine h.eq_of_near (h.exponent_le_of_lt hk hless) ?_
  rw [sub_self, abs_zero]
  positivity

theorem error (h : Nearest q m e) (hq : (2 : Rat) ^ (e + 52) ≤ q) :
    |(m : Rat) * 2 ^ e - q| ≤ q / 2 ^ 53 := by
  have hpow : (0 : Rat) < 2 ^ e := by positivity
  have hlow := h.significand.low
  have hhigh := h.significand.high
  rw [le_div_iff₀ hpow] at hlow
  rw [div_le_iff₀ hpow] at hhigh
  have hunit : (2 : Rat) ^ e / 2 ≤ q / 2 ^ 53 := by
    rw [zpow_add₀ two_ne_zero] at hq
    have h52 : (2 : Rat) ^ (52 : Int) = 2 ^ 52 := by norm_num
    rw [h52] at hq
    rw [div_le_div_iff₀ two_pos (by positivity)]
    linarith
  rw [abs_le]
  constructor <;> linarith

end Nearest

end RehashChart.Binary64
