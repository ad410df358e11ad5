import RehashChart.Proofs.Chart.Multiples

/-! # From numbers to pixels

The mapping of an axis keeps the order of shares, no pixel is beyond the ends of the plot, and each
is close to where it should be. Upwards and downwards are the same but for the sign.
-/

namespace RehashChart

open Binary64

/-! ## One mapping -/

def shareOf (v lo hi : Binary64) : Binary64 := (v - lo) / (hi - lo)

/-- The number by which pixels are moved so that rounding does not matter. -/
theorem exists_tolerance :
    ∃ t, (Binary64.ofRat false (mkRat 1 1000)).HasValue t ∧ 0 < t ∧ t ≤ 1 / 4 := by
  obtain ⟨t, ht, hlow, hhigh⟩ := ofRat_mkRat_between false (n := 1) (d := 1000)
    (representable_div_two_pow (c := 1) (k := 10) (by decide) (by decide))
    (representable_div_two_pow (c := 1) (k := 2) (by decide) (by decide))
    (by norm_num) (by norm_num)
  norm_num at hlow hhigh
  exact ⟨t, ht, by linarith, by linarith⟩

/-- The steps from a share of the way up to the pixels gone: it is spread over `span` pixels and
moved by the tolerance `t`. -/
structure Offset (span : Int) (x : Binary64) (s t p r : Rat) : Prop where
  product : (ofInt span * x).HasValue p
  sum : (ofInt span * x + .ofRat false (mkRat 1 1000)).HasValue r
  spread : RoundsTo (span * s) p
  moved : RoundsTo (p + t) r
  nonneg : 0 ≤ r
  le : r ≤ span + 1 / 2

/-- On the way up a pixel is rounded twice, and it is not beyond the end even if the share is a
little too large. -/
theorem exists_offset {span : Int} (hspan : 0 ≤ span) (hspan' : span ≤ 2 ^ 20) {x : Binary64}
    {s t : Rat} (hx : x.HasValue s) (h₀ : 0 ≤ s) (h₁ : s ≤ 1 + 1 / 2 ^ 30)
    (ht : (Binary64.ofRat false (mkRat 1 1000)).HasValue t) (ht₀ : 0 < t) (ht₁ : t ≤ 1 / 4) :
    ∃ p r : Rat, Offset span x s t p r := by
  have hr : (0 : Rat) ≤ span := by exact_mod_cast hspan
  have hr' : (span : Rat) ≤ 2 ^ 20 := by exact_mod_cast hspan'
  have hfactor : (ofInt span).HasValue span :=
    ofInt_hasValue (by simp only [significands]; omega)
  have hquarter : Representable ((4 * span + 1 : Int) / 2 ^ 2) :=
    representable_div_two_pow (by simp only [significands]; omega) (by decide)
  have hhalf : Representable ((2 * span + 1 : Int) / 2 ^ 1) :=
    representable_div_two_pow (by simp only [significands]; omega) (by decide)
  have hs : (span : Rat) * s ≤ ((4 * span + 1 : Int) : Rat) / 2 ^ 2 := by
    push_cast
    nlinarith
  obtain ⟨p, hp, hplow, hphigh⟩ :=
    hfactor.mul_between hx representable_zero hquarter (mul_nonneg hr h₀) hs
  push_cast at hphigh
  obtain ⟨r, hsum, hrlow, hrhigh⟩ :=
    hp.add_between ht representable_zero hhalf (by linarith) (by push_cast; linarith)
  push_cast at hrhigh
  exact ⟨p, r, hp, hsum, hfactor.mul_rounds hx hp, hp.add_rounds ht hsum, hrlow, by linarith⟩

namespace Offset

variable {span : Int} {x : Binary64} {s t p r : Rat}

theorem floor_bounds (h : Offset span x s t p r) : 0 ≤ r.floor ∧ r.floor ≤ span := by
  have hlow : 0 ≤ r.floor := Rat.le_floor_iff.mpr (by exact_mod_cast h.nonneg)
  have hhigh : r.floor < span + 1 := by
    rw [Rat.floor_lt_iff]
    push_cast
    linarith [h.le]
  omega

theorem pixel (h : Offset span x s t p r) (hspan : span ≤ 2 ^ 20) :
    (ofInt span * x + .ofRat false (mkRat 1 1000)).floor.toInt32 = r.floor := by
  have hbounds := h.floor_bounds
  exact h.sum.floor.toInt32_eq (by omega) (by omega)

theorem pixel_down (h : Offset span x s t p r) (hspan : span ≤ 2 ^ 20) (hx : x.HasValue s)
    (ht : (Binary64.ofRat false (mkRat 1 1000)).HasValue t) :
    (ofInt (-span) * x - .ofRat false (mkRat 1 1000)).ceil.toInt32 = -r.floor := by
  have hbounds := h.floor_bounds
  have hfactor : (ofInt span).HasValue span :=
    ofInt_hasValue (by simp only [significands]; omega)
  have hfactor' : (ofInt (-span)).HasValue (-span) := by
    exact_mod_cast ofInt_hasValue (n := -span) (by simp only [significands]; omega)
  have hdifference :=
    h.product.sub_opposite (hfactor.mul_opposite hfactor' hx h.product) ht h.sum
  have hceil := hdifference.ceil
  rw [Rat.ceil_eq_neg_floor_neg, neg_neg] at hceil
  exact hceil.toInt32_eq (by omega) (by omega)

end Offset

theorem pixels_up {span : Int} (hspan : 0 ≤ span) (hspan' : span ≤ 2 ^ 20) {x₁ x₂ : Binary64}
    {s₁ s₂ : Rat} (hx₁ : x₁.HasValue s₁) (hx₂ : x₂.HasValue s₂) (h₀ : 0 ≤ s₁) (h₁ : s₁ ≤ s₂)
    (h₂ : s₂ ≤ 1 + 1 / 2 ^ 30) :
    ∃ k₁ k₂ : Int, (ofInt span * x₁ + .ofRat false (mkRat 1 1000)).floor.toInt32 = k₁ ∧
      (ofInt span * x₂ + .ofRat false (mkRat 1 1000)).floor.toInt32 = k₂ ∧
        0 ≤ k₁ ∧ k₁ ≤ k₂ ∧ k₂ ≤ span := by
  obtain ⟨t, ht, ht₀, ht₁⟩ := exists_tolerance
  have hr : (0 : Rat) ≤ span := by exact_mod_cast hspan
  obtain ⟨p₁, r₁, hoffset₁⟩ := exists_offset hspan hspan' hx₁ h₀ (h₁.trans h₂) ht ht₀ ht₁
  obtain ⟨p₂, r₂, hoffset₂⟩ := exists_offset hspan hspan' hx₂ (h₀.trans h₁) h₂ ht ht₀ ht₁
  have hp : p₁ ≤ p₂ := hoffset₁.spread.mono hoffset₂.spread (mul_le_mul_of_nonneg_left h₁ hr)
  have horder : r₁ ≤ r₂ := hoffset₁.moved.mono hoffset₂.moved (by linarith)
  exact ⟨r₁.floor, r₂.floor, hoffset₁.pixel hspan', hoffset₂.pixel hspan',
    hoffset₁.floor_bounds.1, Rat.floor_monotone horder, hoffset₂.floor_bounds.2⟩

/-- On the way up a pixel is the whole part of what it should be, up to a thousandth. -/
theorem exists_pixel {span : Int} (hspan : 0 ≤ span) (hspan' : span ≤ 2 ^ 20) {x : Binary64}
    {s e : Rat} (hx : x.HasValue s) (hs : 0 ≤ s) (he : |s - e| ≤ 1 / 2 ^ 40) (he' : e ≤ 1) :
    ∃ r : Rat, (ofInt span * x + .ofRat false (mkRat 1 1000)).floor.toInt32 = r.floor ∧
      0 ≤ r ∧ r ≤ span + 1 / 2 ∧ |r - (span * e + 1 / 1000)| ≤ 1 / 2 ^ 10 := by
  obtain ⟨t, ht, ht₀, ht₁⟩ := exists_tolerance
  have hr : (0 : Rat) ≤ span := by exact_mod_cast hspan
  have hr' : (span : Rat) ≤ 2 ^ 20 := by exact_mod_cast hspan'
  have hclose := abs_le.mp he
  have hs' : s ≤ 1 + 1 / 2 ^ 30 := by linarith
  obtain ⟨p, r, hoffset⟩ := exists_offset hspan hspan' hx hs hs' ht ht₀ ht₁
  have hproduct : 0 ≤ (span : Rat) * s := mul_nonneg hr hs
  have hproduct' : (span : Rat) * s ≤ 2 ^ 21 := by nlinarith
  have hthousandth : mkRat 1 1000 = 1 / 1000 := by
    rw [Rat.mkRat_eq_div]
    norm_num
  have hexact : |(span : Rat) * s - span * e| ≤ 1 / 2 ^ 20 := by
    rw [← mul_sub, abs_mul, abs_of_nonneg hr]
    calc (span : Rat) * |s - e| ≤ 2 ^ 20 * (1 / 2 ^ 40) := by gcongr
      _ = 1 / 2 ^ 20 := by norm_num
  have hpnear := hoffset.spread.near_of_nonneg hproduct
  have hrnear := hoffset.moved.near_of_nonneg
    (add_nonneg (hoffset.spread.nonneg hproduct) ht₀.le)
  have htnear := (roundsTo_of_hasValue (hthousandth ▸ ht)).near_of_nonneg (by norm_num)
  rw [abs_le] at hexact hpnear hrnear htnear
  refine ⟨r, hoffset.pixel hspan', hoffset.nonneg, hoffset.le, ?_⟩
  rw [abs_le]
  constructor <;> linarith

theorem pixel_of_none {span : Int} (hspan : span.natAbs ≤ 2 ^ 20) {x : Binary64}
    (hx : x = nan ∨ x.HasValue 0) :
    (ofInt span * x + .ofRat false (mkRat 1 1000)).floor.toInt32 = 0 := by
  have hfactor : (ofInt span).HasValue span :=
    ofInt_hasValue (by simp only [significands]; omega)
  rcases hx with rfl | hx
  · obtain ⟨s, m, e, hc, heq, -⟩ := hfactor.eq_finite
    rw [heq]
    rfl
  · obtain ⟨t, ht, ht₀, ht₁⟩ := exists_tolerance
    have hproduct := hfactor.mul hx (by rw [mul_zero]; exact representable_zero)
    rw [mul_zero] at hproduct
    have hsum := hproduct.add ht (by rw [zero_add]; exact ht.representable)
    rw [zero_add] at hsum
    have hfloor : t.floor = 0 := floor_eq_of_between (by exact_mod_cast ht₀.le) (by
      push_cast
      linarith)
    have hwhole := hsum.floor
    rw [hfloor] at hwhole
    exact hwhole.toInt32_eq (by decide) (by decide)

theorem exists_shares {v₁ v₂ lo hi : Binary64} {a₁ a₂ d : Rat} (hv₁ : (v₁ - lo).HasValue a₁)
    (hv₂ : (v₂ - lo).HasValue a₂) (hd : (hi - lo).HasValue d) (hpos : 0 < d) (h₀ : 0 ≤ a₁)
    (h₁ : a₁ ≤ a₂) (h₂ : a₂ ≤ (1 + 1 / 2 ^ 30) * d) :
    ∃ s₁ s₂, (shareOf v₁ lo hi).HasValue s₁ ∧ (shareOf v₂ lo hi).HasValue s₂ ∧
      0 ≤ s₁ ∧ s₁ ≤ s₂ ∧ s₂ ≤ 1 + 1 / 2 ^ 30 := by
  have hbound : Representable (1 + 1 / 2 ^ 30) := by
    have h := representable_div_two_pow (c := 2 ^ 30 + 1) (k := 30) (by decide) (by decide)
    norm_num at h ⊢
    exact h
  obtain ⟨s₁, hs₁, hlow, _⟩ := hv₁.div_between hd hpos.ne' representable_zero hbound
    (by positivity) (by rw [div_le_iff₀ hpos]; linarith)
  obtain ⟨s₂, hs₂, _, hhigh⟩ := hv₂.div_between hd hpos.ne' representable_zero hbound
    (div_nonneg (h₀.trans h₁) hpos.le) (by rw [div_le_iff₀ hpos]; exact h₂)
  exact ⟨s₁, s₂, hs₁, hs₂, hlow, hv₁.div_le hv₂ hd hpos hs₁ hs₂ h₁, hhigh⟩

theorem quotient_near {n : Nat} {a p d s : Rat} (hn : 1 ≤ n) (ha₀ : 0 ≤ a) (hp₀ : 0 ≤ p)
    (hp : p ≤ n) (ha : |a - p| ≤ n / 2 ^ 46) (hd : |d - n| ≤ n / 2 ^ 48)
    (hs : RoundsTo (a / d) s) : |s - p / n| ≤ 1 / 2 ^ 40 := by
  have hnr : (1 : Rat) ≤ n := by exact_mod_cast hn
  have hd' := abs_le.mp hd
  have hdlarge : (n : Rat) / 2 ≤ d := by linarith
  have hdpos : 0 < d := by linarith
  have hn0 : (n : Rat) ≠ 0 := by linarith
  have hshare₀ : 0 ≤ p / n := by positivity
  have hshare : p / n ≤ 1 := (div_le_one (by linarith)).mpr hp
  have hquotient : |a / d - p / n| ≤ 1 / 2 ^ 43 := by
    -- the error of the dividend, and that of the divisor times the quotient
    have hsplit : a / d - p / n = ((a - p) - p / n * (d - n)) / d := by
      field_simp
      ring
    rw [hsplit, abs_div, abs_of_pos hdpos, div_le_iff₀ hdpos]
    calc |(a - p) - p / n * (d - n)| ≤ |a - p| + |p / n * (d - n)| := abs_sub _ _
      _ ≤ n / 2 ^ 46 + 1 * (n / 2 ^ 48) := by
          rw [abs_mul, abs_of_nonneg hshare₀]
          gcongr
      _ ≤ 1 / 2 ^ 43 * d := by linarith
  have hquotient' := abs_le.mp hquotient
  have hs' := abs_le.mp (hs.near_of_nonneg (by positivity))
  rw [abs_le]
  constructor <;> linarith

/-- Where pixels run downwards, what is a share of the way is so many pixels back. -/
theorem pixelOf_down {v lo hi : Binary64} {first last : Int} (hlast : last ≤ first)
    (hsmall : first - last ≤ 2 ^ 20) {s : Rat} (hs : (shareOf v lo hi).HasValue s) (h₀ : 0 ≤ s)
    (h₁ : s ≤ 1 + 1 / 2 ^ 30) :
    pixelOf v lo hi first last = first -
      (ofInt (first - last) * shareOf v lo hi + .ofRat false (mkRat 1 1000)).floor.toInt32 := by
  obtain ⟨t, ht, ht₀, ht₁⟩ := exists_tolerance
  obtain ⟨p, r, hoffset⟩ := exists_offset (by omega : 0 ≤ first - last) hsmall hs h₀ h₁ ht ht₀ ht₁
  have hbounds := hoffset.floor_bounds
  have hdown := hoffset.pixel_down hsmall hs ht
  rw [neg_sub, shareOf] at hdown
  rw [hoffset.pixel hsmall]
  unfold pixelOf
  dsimp only
  rw [hdown]
  split
  · omega
  · rw [if_neg (by omega)]
    rfl

end RehashChart
