import RehashChart.Proofs.Binary64.Nearest

/-! # Rounding to binary64

What `ofRat` makes of a rational number: a number that is exactly what the rational is rounded to,
or an infinity if that is too large. A rational that some number is exactly is left as it is.
-/

namespace RehashChart.Binary64

/-- A number is finite and exactly `q`. -/
structure HasValue (x : Binary64) (q : Rat) : Prop where
  finite : x.isFinite = true
  value : x.toRat = q

def Representable (q : Rat) : Prop :=
  ∃ c k : Int, c.natAbs < significands ∧ -1074 ≤ k ∧ k ≤ 971 ∧ q = c * 2 ^ k

/-- What `q` is rounded to if the result is not too large. -/
inductive RoundsTo : Rat → Rat → Prop where
  | zero : RoundsTo 0 0
  | pos {q : Rat} {m : Nat} {e : Int} : 0 < q → Nearest q m e → RoundsTo q (m * 2 ^ e)
  | neg {q : Rat} {m : Nat} {e : Int} : q < 0 → Nearest (-q) m e → RoundsTo q (-(m * 2 ^ e))

/-! ## Values that are numbers -/

theorem toRat_finite (s : Bool) (m : Nat) (e : Int) (h : Canonical m e) :
    (finite s m e h).toRat = (if s then -(m : Int) else m : Int) * 2 ^ e :=
  shifted_eq _ e

theorem HasValue.unique {x : Binary64} {p q : Rat} (hp : x.HasValue p) (hq : x.HasValue q) :
    p = q :=
  hp.value.symm.trans hq.value

theorem HasValue.representable {x : Binary64} {q : Rat} (h : x.HasValue q) : Representable q := by
  obtain ⟨hfinite, rfl⟩ := h
  cases x with
  | nan => simp [isFinite] at hfinite
  | infinity s => simp [isFinite] at hfinite
  | finite s m e hcanonical =>
      obtain ⟨hm, hlow, hhigh, _⟩ := hcanonical
      refine ⟨if s then -m else m, e, ?_, hlow, hhigh, ?_⟩
      · split <;> simpa using hm
      · exact toRat_finite s m e _

theorem representable_neg {q : Rat} (h : Representable q) : Representable (-q) := by
  obtain ⟨c, k, hc, hlow, hhigh, rfl⟩ := h
  exact ⟨-c, k, by simpa using hc, hlow, hhigh, by push_cast; ring⟩

theorem representable_intCast {c : Int} (h : c.natAbs < significands) : Representable c :=
  ⟨c, 0, h, by decide, by decide, by simp⟩

theorem representable_natCast {n : Nat} (h : n < significands) : Representable n :=
  ⟨n, 0, by simpa using h, by decide, by decide, by simp⟩

theorem representable_div_two_pow {c : Int} {k : Nat} (h : c.natAbs < significands)
    (hk : k ≤ 1074) : Representable (c / 2 ^ k) :=
  ⟨c, -k, h, by omega, by omega, by rw [zpow_neg, zpow_natCast, div_eq_mul_inv]⟩

theorem representable_one_div_two_pow {k : Nat} (hk : k ≤ 1074) : Representable (1 / 2 ^ k) := by
  have h := representable_div_two_pow (c := 1) (by decide) hk
  rwa [Int.cast_one] at h

theorem representable_zero : Representable 0 := ⟨0, 0, by decide, by decide, by decide, by simp⟩

theorem representable_two_pow {k : Nat} (hk : k ≤ 971) : Representable (2 ^ k) :=
  ⟨1, k, by decide, by omega, by omega, by rw [zpow_natCast, Int.cast_one, one_mul]⟩

theorem representable_power {k : Nat} (hk : k ≤ 22) : Representable ((10 ^ k : Nat) : Rat) := by
  refine ⟨5 ^ k, k, ?_, by omega, by omega, ?_⟩
  · rw [Int.natAbs_pow]
    exact lt_of_le_of_lt (Nat.pow_le_pow_right (by decide) hk) (by decide)
  · rw [zpow_natCast]
    push_cast
    rw [← mul_pow]
    norm_num

theorem representable_half {q : Rat} {c : Int} (h : c.natAbs < significands) (hq : q = c / 2) :
    Representable q := by
  rw [hq, ← pow_one (2 : Rat)]
  exact representable_div_two_pow h (by decide)

theorem representable_double {q : Rat} (h : Representable q) (hq : |q| ≤ 2 ^ 80) :
    Representable (2 * q) := by
  obtain ⟨c, k, hc, hlow, hhigh, rfl⟩ := h
  by_cases hk : k ≤ 970
  · refine ⟨c, k + 1, hc, by omega, by omega, ?_⟩
    rw [zpow_add_one₀ two_ne_zero]
    ring
  · -- so large an exponent leaves zero as the only number that is not larger
    have hc0 : c = 0 := by
      by_contra hne
      have hone : (1 : Rat) ≤ |(c : Rat)| := by
        rw [← Int.cast_abs]
        exact_mod_cast Int.one_le_abs hne
      rw [abs_mul, abs_of_pos (by positivity : (0 : Rat) < 2 ^ k)] at hq
      have hpow : (2 : Rat) ^ (81 : Int) ≤ 2 ^ k := zpow_le_zpow_right₀ one_le_two (by omega)
      have h81 : (2 : Rat) ^ (81 : Int) = 2 * 2 ^ 80 := by norm_num
      have hpos : (0 : Rat) < 2 ^ 80 := by positivity
      nlinarith
    rw [hc0, Int.cast_zero, zero_mul, mul_zero]
    exact representable_zero

theorem exists_int_of_representable {q : Rat} (h : Representable q) (hq : 2 ^ 52 ≤ q) :
    ∃ n : Int, q = n := by
  obtain ⟨c, k, hc, _, _, rfl⟩ := h
  rcases le_or_gt 0 k with hk | hk
  · refine ⟨c * 2 ^ k.toNat, ?_⟩
    rw [zpow_of_nonneg hk]
    push_cast
    rfl
  · have hcr : (c : Rat) < significands := by exact_mod_cast by omega
    have hpow : (2 : Rat) ^ k ≤ 1 / 2 := by
      have h := zpow_le_zpow_right₀ (one_le_two : (1 : Rat) ≤ 2) (by omega : k ≤ -1)
      rwa [zpow_neg_one, ← one_div] at h
    have hpos : (0 : Rat) < 2 ^ k := by positivity
    have hsignificands : (significands : Rat) = 2 * 2 ^ 52 := by norm_num [significands]
    nlinarith

theorem two_zpow_le {q : Rat} (h : 1 / 2 ^ 64 ≤ q) : (2 : Rat) ^ (-1022 : Int) ≤ q := by
  have hpow : (2 : Rat) ^ (-1022 : Int) ≤ 2 ^ (-64 : Int) :=
    zpow_le_zpow_right₀ one_le_two (by decide)
  have h64 : (2 : Rat) ^ (-64 : Int) = 1 / 2 ^ 64 := by norm_num
  exact (hpow.trans_eq h64).trans h

/-! ## The rounded value -/

namespace RoundsTo

variable {p q r s : Rat}

theorem nonneg (h : RoundsTo q r) (hq : 0 ≤ q) : 0 ≤ r := by
  cases h with
  | zero => exact le_refl 0
  | pos _ _ => positivity
  | neg hneg _ => exact absurd hq (not_le.mpr hneg)

theorem nonpos (h : RoundsTo q r) (hq : q ≤ 0) : r ≤ 0 := by
  cases h with
  | zero => exact le_refl 0
  | pos hpos _ => exact absurd hq (not_le.mpr hpos)
  | neg _ _ =>
      rw [neg_nonpos]
      positivity

theorem mono (hp : RoundsTo p r) (hq : RoundsTo q s) (h : p ≤ q) : r ≤ s := by
  rcases le_or_gt p 0 with hp0 | hp0
  · rcases le_or_gt 0 q with hq0 | hq0
    · exact (hp.nonpos hp0).trans (hq.nonneg hq0)
    · cases hq with
      | zero => exact absurd hq0 (lt_irrefl 0)
      | pos hpos _ => exact absurd hq0 hpos.le.not_gt
      | neg _ hqn =>
          cases hp with
          | zero => exact absurd (h.trans_lt hq0) (lt_irrefl 0)
          | pos hpos _ => exact absurd hpos hp0.not_gt
          | neg _ hpn => exact neg_le_neg (hqn.mono hpn (neg_le_neg h))
  · cases hp with
    | zero => exact absurd hp0 (lt_irrefl 0)
    | neg hneg _ => exact absurd hp0 hneg.le.not_gt
    | pos _ hpn =>
        cases hq with
        | zero => exact absurd (hp0.trans_le h) (lt_irrefl 0)
        | neg hneg _ => exact absurd (hp0.trans_le h) hneg.le.not_gt
        | pos _ hqn => exact hpn.mono hqn h

theorem exact (h : RoundsTo q r) (hq : Representable q) : r = q := by
  obtain ⟨c, k, hc, hk, _, hvalue⟩ := hq
  cases h with
  | zero => rfl
  | pos _ hn =>
      rw [hvalue] at hn ⊢
      exact hn.exact hc hk
  | neg _ hn =>
      have hneg : -q = ((-c : Int) : Rat) * 2 ^ k := by
        rw [hvalue]
        push_cast
        ring
      rw [hneg] at hn
      rw [hn.exact (by rwa [Int.natAbs_neg]) hk, ← hneg, neg_neg]

theorem exists_nearest (h : RoundsTo q r) (hq : 0 < q) :
    ∃ m e, Nearest q m e ∧ r = m * 2 ^ e := by
  cases h with
  | zero => exact absurd hq (lt_irrefl 0)
  | neg hneg _ => exact absurd hq hneg.le.not_gt
  | @pos _ m e _ hn => exact ⟨m, e, hn, rfl⟩

theorem opposite (h : RoundsTo q r) : RoundsTo (-q) (-r) := by
  cases h with
  | zero =>
      rw [neg_zero]
      exact .zero
  | pos hpos hn => exact .neg (neg_lt_zero.mpr hpos) (by rwa [neg_neg])
  | neg hneg hn =>
      rw [neg_neg]
      exact .pos (neg_pos.mpr hneg) hn

theorem error (h : RoundsTo q r) (hq : (2 : Rat) ^ (-1022 : Int) ≤ q) : |r - q| ≤ q / 2 ^ 53 := by
  obtain ⟨m, e, hnearest, rfl⟩ := h.exists_nearest (lt_of_lt_of_le (by positivity) hq)
  refine hnearest.error (hnearest.full.elim id ?_)
  intro he
  rw [he]
  exact hq

end RoundsTo

/-! ## The rounded number -/

def withSign (negative : Bool) (q : Rat) : Rat := if negative then -q else q

theorem hasValue_finite (s : Bool) {m : Nat} {e : Int} (h : Canonical m e) :
    (finite s m e h).HasValue (withSign s (m * 2 ^ e)) := by
  refine ⟨rfl, ?_⟩
  rw [toRat_finite]
  cases s <;> simp [withSign]

/-- The least magnitude that is too large. -/
def limit : Rat := 2 ^ (1024 : Int)

theorem ofParts_spec (s : Bool) {q : Rat} {m : Nat} {e : Int} (h : Nearest q m e) :
    ((m : Rat) * 2 ^ e < limit ∧ (ofParts s m e).HasValue (withSign s (m * 2 ^ e))) ∨
      limit ≤ (m : Rat) * 2 ^ e ∧ ofParts s m e = infinity s := by
  have hm := h.significand_le
  have hleast := h.least
  have hfull : fullSignificand ≤ m ∨ e = -1074 := by
    by_cases he : e = -1074
    · exact .inr he
    · exact .inl (h.fullSignificand_le he)
  have hvalues : significands = 2 ^ 53 ∧ fullSignificand = 2 ^ 52 := by decide
  unfold ofParts
  split
  · rename_i hcanonical
    refine .inl ⟨?_, hasValue_finite s hcanonical⟩
    obtain ⟨hless, _, hhigh, _⟩ := hcanonical
    calc (m : Rat) * 2 ^ e < significands * 2 ^ e := by gcongr
      _ = 2 ^ (e + 53) := significands_mul e
      _ ≤ limit := zpow_le_zpow_right₀ one_le_two (by omega)
  · rename_i hnot
    split
    · rename_i hcarried
      obtain ⟨_, _, hhigh, _⟩ := hcarried
      -- only the significand that is one too large is carried into the exponent
      have hcarry : m = significands := by
        by_contra hne
        exact hnot ⟨by omega, hleast, by omega, hfull⟩
      have hhalf : ((m / 2 : Nat) : Rat) * 2 ^ (e + 1) = m * 2 ^ e := by
        rw [hcarry, zpow_add_one₀ two_ne_zero]
        norm_num [significands]
        ring
      refine .inl ⟨?_, hhalf ▸ hasValue_finite s _⟩
      rw [← hhalf, hcarry]
      calc ((significands / 2 : Nat) : Rat) * 2 ^ (e + 1) < significands * 2 ^ (e + 1) := by
            gcongr
            decide
        _ = 2 ^ (e + 1 + 53) := significands_mul (e + 1)
        _ ≤ limit := zpow_le_zpow_right₀ one_le_two (by omega)
    · rename_i hcarried
      refine .inr ⟨?_, rfl⟩
      rcases Nat.lt_or_ge m significands with hless | hmore
      · have hhigh : 972 ≤ e := by
          by_contra hlow
          exact hnot ⟨hless, hleast, by omega, hfull⟩
        have hm' : (fullSignificand : Rat) ≤ m := by
          exact_mod_cast hfull.resolve_right (by omega)
        calc limit ≤ 2 ^ (e + 52) := zpow_le_zpow_right₀ one_le_two (by omega)
          _ = fullSignificand * 2 ^ e := (fullSignificand_mul e).symm
          _ ≤ m * 2 ^ e := by gcongr
      · have hcarry : m = significands := by omega
        have hhigh : 971 ≤ e := by
          by_contra hlow
          refine hcarried ⟨?_, by omega, by omega, .inl ?_⟩ <;> omega
        calc limit ≤ 2 ^ (e + 53) := zpow_le_zpow_right₀ one_le_two (by omega)
          _ = m * 2 ^ e := by rw [hcarry, significands_mul]

theorem roundsTo_of_nearest {q : Rat} (hq : q ≠ 0) {m : Nat} {e : Int} (h : Nearest |q| m e) :
    RoundsTo q (withSign (decide (q < 0)) (m * 2 ^ e)) := by
  unfold withSign
  rcases lt_or_gt_of_ne hq with hneg | hpos
  · rw [abs_of_neg hneg] at h
    rw [if_pos (decide_eq_true hneg)]
    exact .neg hneg h
  · rw [abs_of_pos hpos] at h
    rw [if_neg (by simpa using hpos.le)]
    exact .pos hpos h

theorem abs_withSign (s : Bool) {q : Rat} (h : 0 ≤ q) : |withSign s q| = q := by
  unfold withSign
  split
  · rw [abs_neg, abs_of_nonneg h]
  · exact abs_of_nonneg h

theorem hasValue_zero (s : Bool) : (zero s).HasValue 0 := by
  have hzero : withSign s (((0 : Nat) : Rat) * 2 ^ (-1074 : Int)) = 0 := by simp [withSign]
  exact hzero ▸ hasValue_finite s _

/-- A rational number becomes the number that it is rounded to, or an infinity if that is too
large. -/
theorem ofRat_spec (s : Bool) (q : Rat) :
    ∃ r, RoundsTo q r ∧
      (|r| < limit ∧ (ofRat s q).HasValue r ∨
        limit ≤ |r| ∧ ofRat s q = infinity (decide (q < 0))) := by
  by_cases hq : q = 0
  · subst hq
    refine ⟨0, .zero, .inl ⟨?_, hasValue_zero s⟩⟩
    rw [abs_zero]
    exact zpow_pos two_pos _
  · have hnum : q.num ≠ 0 := Rat.num_ne_zero.mpr hq
    have habs : |q| = (q.num.natAbs : Rat) / q.den := by
      rw [← Rat.num_div_den q, abs_div, Nat.abs_cast, ← Int.cast_abs, Int.abs_eq_natAbs,
        Int.cast_natCast, Rat.num_div_den]
    have hnearest := nearest_of_quotient (Int.natAbs_pos.mpr hnum) q.den_pos
    rw [← habs] at hnearest
    have hsign : decide (q.num < 0) = decide (q < 0) := by simp [Rat.num_neg]
    have hofRat : ofRat s q = ofParts (decide (q < 0))
        (nearestEven (scaledBy q.num.natAbs q.den (unitExponent q.num.natAbs q.den)).1
          (scaledBy q.num.natAbs q.den (unitExponent q.num.natAbs q.den)).2)
        (unitExponent q.num.natAbs q.den) := by
      rw [ofRat, if_neg hnum, ofQuotient, if_neg (Int.natAbs_ne_zero.mpr hnum), hsign]
    rw [hofRat]
    refine ⟨_, roundsTo_of_nearest hq hnearest, ?_⟩
    rw [abs_withSign _ (by positivity)]
    exact ofParts_spec _ hnearest

theorem abs_lt_limit {q : Rat} (h : Representable q) : |q| < limit := by
  obtain ⟨c, k, hc, _, hk, rfl⟩ := h
  have hcr : |(c : Rat)| < significands := by
    rw [← Int.cast_abs, Int.abs_eq_natAbs, Int.cast_natCast]
    exact_mod_cast hc
  rw [abs_mul, abs_of_pos (by positivity : (0 : Rat) < 2 ^ k)]
  calc |(c : Rat)| * 2 ^ k < significands * 2 ^ k := by gcongr
    _ = 2 ^ (k + 53) := significands_mul k
    _ ≤ limit := zpow_le_zpow_right₀ one_le_two (by omega)

theorem roundsTo_self {q : Rat} (h : Representable q) : RoundsTo q q := by
  obtain ⟨r, hrounds, _⟩ := ofRat_spec false q
  rwa [hrounds.exact h] at hrounds

/-- What lies between two rational numbers is rounded to a number between the ones that these are
rounded to. -/
theorem ofRat_between_rounded (s : Bool) {p q p' low high : Rat} (hlow : RoundsTo p low)
    (hhigh : RoundsTo p' high) (hlow' : |low| < limit) (hhigh' : |high| < limit) (h₁ : p ≤ q)
    (h₂ : q ≤ p') : ∃ r, (ofRat s q).HasValue r ∧ low ≤ r ∧ r ≤ high := by
  obtain ⟨r, hrounds, hspec⟩ := ofRat_spec s q
  have hr₁ := hlow.mono hrounds h₁
  have hr₂ := hrounds.mono hhigh h₂
  rcases hspec with ⟨_, hvalue⟩ | ⟨hlarge, _⟩
  · exact ⟨r, hvalue, hr₁, hr₂⟩
  · have hless : |r| < limit := (abs_le_max_abs_abs hr₁ hr₂).trans_lt (max_lt hlow' hhigh')
    exact absurd hless hlarge.not_gt

theorem ofRat_between (s : Bool) {q low high : Rat} (hlow : Representable low)
    (hhigh : Representable high) (h₁ : low ≤ q) (h₂ : q ≤ high) :
    ∃ r, (ofRat s q).HasValue r ∧ low ≤ r ∧ r ≤ high :=
  ofRat_between_rounded s (roundsTo_self hlow) (roundsTo_self hhigh) (abs_lt_limit hlow)
    (abs_lt_limit hhigh) h₁ h₂

theorem ofRat_mkRat_between (s : Bool) {n : Int} {d : Nat} {low high : Rat}
    (hlow : Representable low) (hhigh : Representable high) (h₁ : low ≤ n / d)
    (h₂ : (n : Rat) / d ≤ high) : ∃ r, (ofRat s (mkRat n d)).HasValue r ∧ low ≤ r ∧ r ≤ high := by
  rw [Rat.mkRat_eq_div]
  exact ofRat_between s hlow hhigh h₁ h₂

theorem ofRat_exact (s : Bool) {q : Rat} (h : Representable q) : (ofRat s q).HasValue q := by
  obtain ⟨r, hvalue, h₁, h₂⟩ := ofRat_between s h h (le_refl q) (le_refl q)
  rwa [le_antisymm h₂ h₁] at hvalue

theorem roundsTo_of_hasValue {s : Bool} {q r : Rat} (h : (ofRat s q).HasValue r) :
    RoundsTo q r := by
  rcases ofRat_spec s q with ⟨r', hrounds, ⟨_, hvalue⟩ | ⟨_, hinfinite⟩⟩
  · rwa [h.unique hvalue]
  · have hfinite := h.finite
    simp [hinfinite, isFinite] at hfinite

theorem hasValue_of_roundsTo (s : Bool) {q r : Rat} (h : RoundsTo q r) (hr : |r| < limit) :
    (ofRat s q).HasValue r := by
  obtain ⟨r', hvalue, h₁, h₂⟩ := ofRat_between_rounded s h h hr hr (le_refl q) (le_refl q)
  rwa [le_antisymm h₂ h₁] at hvalue

theorem ofRat_mono {s t : Bool} {p q r u : Rat} (hp : (ofRat s p).HasValue r)
    (hq : (ofRat t q).HasValue u) (h : p ≤ q) : r ≤ u :=
  (roundsTo_of_hasValue hp).mono (roundsTo_of_hasValue hq) h

theorem ofRat_error {s : Bool} {q r : Rat} (h : (ofRat s q).HasValue r)
    (hq : (2 : Rat) ^ (-1022 : Int) ≤ q) : |r - q| ≤ q / 2 ^ 53 :=
  (roundsTo_of_hasValue h).error hq

theorem RoundsTo.near_of_nonneg {q r : Rat} (h : RoundsTo q r) (hq : 0 ≤ q) :
    |r - q| ≤ q / 2 ^ 53 + 1 / 2 ^ 64 := by
  rcases le_total (1 / 2 ^ 64) q with hlarge | hsmall
  · exact (h.error (two_zpow_le hlarge)).trans (le_add_of_nonneg_right (by positivity))
  · have hbound := representable_one_div_two_pow (k := 64) (by decide)
    have hr := h.nonneg hq
    have hr' := h.mono (roundsTo_self hbound) hsmall
    rw [abs_le]
    constructor <;> linarith

/-- Every number is rounded by at most one part in `2 ^ 53` and the least bit that matters. -/
theorem RoundsTo.near {q r : Rat} (h : RoundsTo q r) : |r - q| ≤ |q| / 2 ^ 53 + 1 / 2 ^ 64 := by
  rcases le_total 0 q with hq | hq
  · rw [abs_of_nonneg hq]
    exact h.near_of_nonneg hq
  · have hopposite := h.opposite.near_of_nonneg (neg_nonneg.mpr hq)
    rw [neg_sub_neg, abs_sub_comm] at hopposite
    rw [abs_of_nonpos hq]
    exact hopposite

theorem exists_close (s : Bool) {q : Rat} (hq : 1 / 2 ^ 64 ≤ q) (hq' : q ≤ 2 ^ 70) :
    ∃ r, (ofRat s q).HasValue r ∧ 0 ≤ r ∧ q - q / 2 ^ 53 ≤ r ∧ r ≤ q + q / 2 ^ 53 := by
  have hpos : (0 : Rat) ≤ q := le_trans (by positivity) hq
  obtain ⟨r, hr, hlow, _⟩ := ofRat_between s (q := q)
    representable_zero (representable_two_pow (k := 70) (by decide)) hpos hq'
  have herror := ofRat_error hr (two_zpow_le hq)
  rw [abs_le] at herror
  exact ⟨r, hr, hlow, by linarith, by linarith⟩

/-- What is not negative stays so, and gets larger by at most one part in `2 ^ 53`. -/
theorem exists_rounded (sign : Bool) {q : Rat} (h : q = 0 ∨ 1 / 2 ^ 64 ≤ q) (hq : q ≤ 2 ^ 70) :
    ∃ r, (ofRat sign q).HasValue r ∧ 0 ≤ r ∧ r ≤ q + q / 2 ^ 53 := by
  rcases h with rfl | h
  · exact ⟨0, ofRat_exact sign representable_zero, le_refl 0, by simp⟩
  · obtain ⟨r, hr, hpos, _, hupper⟩ := exists_close sign h hq
    exact ⟨r, hr, hpos, hupper⟩

/-- Multiples of one half stay such. -/
theorem exists_half_of_hasValue {s : Bool} {q r : Rat} {c : Int} (hr : (ofRat s q).HasValue r)
    (hpos : 0 ≤ q) (hq : q = c / 2) : ∃ d : Int, r = d / 2 := by
  by_cases hc : c.natAbs < significands
  · have h := ofRat_exact s (representable_half hc hq)
    exact ⟨c, (hr.unique h).trans hq⟩
  · have hc0 : 0 ≤ c := by
      have h : (0 : Rat) ≤ c := by linarith
      exact_mod_cast h
    have hlarge : (2 : Rat) ^ 52 ≤ q := by
      have h : (significands : Rat) ≤ c := by exact_mod_cast by omega
      have hsignificands : (significands : Rat) = 2 * 2 ^ 52 := by norm_num [significands]
      linarith
    have hbound := representable_two_pow (k := 52) (by decide)
    have hmono := ofRat_mono (ofRat_exact s hbound) hr hlarge
    obtain ⟨n, hn⟩ := exists_int_of_representable hr.representable hmono
    exact ⟨2 * n, by rw [hn]; push_cast; ring⟩

/-- A number is not changed by adding one part in `2 ^ 54` of it, or taking half as much off it. -/
theorem RoundsTo.absorb {n t r : Rat} (hn : Representable n) (hpos : 0 < n)
    (hlow : -(n / 2 ^ 55) ≤ t) (hhigh : t ≤ n / 2 ^ 54) (h : RoundsTo (n + t) r) : r = n := by
  obtain ⟨m, e, hnearest, rfl⟩ := h.exists_nearest (by linarith)
  obtain ⟨c, k, hc, hk, _, rfl⟩ := hn
  have hpow : (0 : Rat) < 2 ^ k := by positivity
  have hsignificands : (significands : Rat) = 2 ^ 53 := by norm_num [significands]
  have hcr : (c : Rat) ≤ 2 ^ 53 - 1 := by
    have h : c ≤ 2 ^ 53 - 1 := by simp only [significands] at hc; omega
    exact_mod_cast h
  have hek : e ≤ k := by
    refine hnearest.exponent_le_of_lt hk ?_
    rw [← significands_mul, hsignificands]
    nlinarith
  refine hnearest.eq_of_near hek ?_
  have hunit : (0 : Rat) < 2 ^ e := by positivity
  have hbelow := hnearest.below
  rw [← significands_mul, hsignificands] at hbelow
  rw [add_sub_cancel_left, abs_lt]
  constructor <;> linarith

theorem ofRat_absorb (s : Bool) {n t : Rat} (hn : Representable n) (hlarge : 2 ^ 55 ≤ n)
    (ht : |t| ≤ 1 / 2) : (ofRat s (n + t)).HasValue n := by
  obtain ⟨hlow, hhigh⟩ := abs_le.mp ht
  obtain ⟨r, hrounds, _⟩ := ofRat_spec s (n + t)
  have hsame := hrounds.absorb hn (by linarith) (by linarith) (by linarith)
  exact hasValue_of_roundsTo s (hsame ▸ hrounds) (abs_lt_limit hn)

/-- Up to one half above a large number rounding stays below it. -/
theorem ofRat_below (s : Bool) {q low n : Rat} (hlow : Representable low) (hn : Representable n)
    (hlarge : 2 ^ 55 ≤ n) (h₁ : low ≤ q) (h₂ : q ≤ n + 1 / 2) :
    ∃ r, (ofRat s q).HasValue r ∧ low ≤ r ∧ r ≤ n := by
  have hrounds := roundsTo_of_hasValue
    (ofRat_absorb false hn hlarge (t := 1 / 2) (by rw [abs_of_pos (by norm_num)]))
  exact ofRat_between_rounded s (roundsTo_self hlow) hrounds (abs_lt_limit hlow) (abs_lt_limit hn)
    h₁ h₂

/-! ## Whole numbers -/

theorem ofNat_eq_ofRat (n : Nat) : ofNat n = ofRat false n := by
  rw [ofRat, Rat.num_natCast, Rat.den_natCast]
  by_cases hn : n = 0
  · subst hn
    rfl
  · have hnum : (n : Int) ≠ 0 := by exact_mod_cast hn
    have hsign : decide ((n : Int) < 0) = false := by simp
    rw [if_neg hnum, hsign, Int.natAbs_natCast]
    rfl

theorem ofNat_of_representable {n : Nat} (h : Representable n) : (ofNat n).HasValue n := by
  rw [ofNat_eq_ofRat]
  exact ofRat_exact false h

theorem ofNat_hasValue {n : Nat} (h : n < significands) : (ofNat n).HasValue n :=
  ofNat_of_representable (representable_natCast h)

theorem roundsTo_of_ofNat {n : Nat} {r : Rat} (h : (ofNat n).HasValue r) : RoundsTo n r :=
  roundsTo_of_hasValue (ofNat_eq_ofRat n ▸ h)

theorem ofNat_finite_or (n : Nat) :
    (∃ r, (ofNat n).HasValue r) ∨ significands ≤ n ∧ ofNat n = infinity false := by
  rcases Nat.lt_or_ge n significands with hfew | hmany
  · exact .inl ⟨n, ofNat_hasValue hfew⟩
  · have hpos : ¬(n : Rat) < 0 := not_lt.mpr (by positivity)
    rw [ofNat_eq_ofRat]
    rcases ofRat_spec false n with ⟨r, _, ⟨_, hr⟩ | ⟨_, hinfinite⟩⟩
    · exact .inl ⟨r, hr⟩
    · rw [decide_eq_false hpos] at hinfinite
      exact .inr ⟨hmany, hinfinite⟩

theorem two_pow_le_of_ofNat {n : Nat} {r : Rat} (h : (ofNat n).HasValue r)
    (hn : significands ≤ n) : 2 ^ 53 ≤ r := by
  refine (roundsTo_self (representable_two_pow (by decide))).mono (roundsTo_of_ofNat h) ?_
  exact_mod_cast hn

theorem exists_int_of_ofNat {n : Nat} {r : Rat} (h : (ofNat n).HasValue r) : ∃ c : Int, r = c := by
  rcases Nat.lt_or_ge n significands with hfew | hmany
  · exact ⟨n, h.unique (ofNat_hasValue hfew)⟩
  · have hlarge := two_pow_le_of_ofNat h hmany
    exact exists_int_of_representable h.representable (by linarith)

/-- Different whole numbers stay apart, or they become the same number, which is large. -/
theorem ofNat_apart {i j : Nat} {r u : Rat} (hi : (ofNat i).HasValue r)
    (hj : (ofNat j).HasValue u) (h : i < j) : r + 1 ≤ u ∨ r = u ∧ 2 ^ 53 ≤ u := by
  have hle : r ≤ u :=
    (roundsTo_of_ofNat hi).mono (roundsTo_of_ofNat hj) (by exact_mod_cast h.le)
  rcases hle.eq_or_lt with heq | hlt
  · refine .inr ⟨heq, two_pow_le_of_ofNat hj ?_⟩
    by_contra hfew
    have hfew' := Nat.lt_of_not_le hfew
    rw [hi.unique (ofNat_hasValue (h.trans hfew')), hj.unique (ofNat_hasValue hfew')] at heq
    exact h.ne (by exact_mod_cast heq)
  · obtain ⟨c, rfl⟩ := exists_int_of_ofNat hi
    obtain ⟨d, rfl⟩ := exists_int_of_ofNat hj
    exact .inl (by exact_mod_cast hlt)

theorem ofInt_eq_ofRat (n : Int) : ofInt n = ofRat false n := by
  rw [ofRat, Rat.num_intCast, Rat.den_intCast]
  by_cases hn : n = 0
  · subst hn
    rfl
  · rw [if_neg hn]
    rfl

theorem ofInt_hasValue {n : Int} (h : n.natAbs < significands) : (ofInt n).HasValue n := by
  rw [ofInt_eq_ofRat]
  exact ofRat_exact false (representable_intCast h)

end RehashChart.Binary64
