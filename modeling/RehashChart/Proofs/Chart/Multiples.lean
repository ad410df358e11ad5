import RehashChart.Chart.Drawing
import RehashChart.Proofs.Binary64.Arithmetic

/-! # Multiples on the horizontal axis

The first multiple of a whole step on the axis is zero, the last one is below the number of bars,
and the points found by rounding are the exact ones. So a whole step never makes more points than
there are bars.
-/

namespace RehashChart.KeyPoints

open Binary64 BarChart

theorem epsilon_hasValue : epsilon.HasValue (1 / 2 ^ 52) := by
  have h : Binary64.shifted 1 (-52) = 1 / 2 ^ 52 := by
    rw [shifted_eq]
    norm_num
  rw [epsilon, h]
  exact ofRat_exact false (representable_div_two_pow (c := 1) (by decide) (by decide))

theorem oneHalf_hasValue : oneHalf.HasValue (1 / 2) := by
  rw [oneHalf, mkRat_one_two]
  exact ofRat_exact false (representable_half (c := 1) (by decide) (by norm_num))

theorem low_hasValue : (-oneHalf).HasValue (-(1 / 2)) := oneHalf_hasValue.neg

/-- A remainder is exact if all that it is made of is, and if it is not close to the divisor. -/
theorem remainder_hasValue {a b : Binary64} {p s t : Rat} (ha : a.HasValue p) (hb : b.HasValue s)
    (ht : (a / b).HasValue t) (hmultiple : Representable (t.floor * s))
    (hrest : Representable (p - t.floor * s)) (hgap : Representable (p - t.floor * s - s))
    (hfar : 1 / 4 ≤ |p - t.floor * s - s|) :
    (remainder a b).HasValue (p - t.floor * s) := by
  have hsub := ha.sub (ht.floor.mul hb hmultiple) hrest
  have hlt := (hsub.sub hb hgap).abs.lt_eq epsilon_hasValue
  have hnot : ¬|p - t.floor * s - s| < 1 / 2 ^ 52 := by
    refine not_lt.mpr (le_trans ?_ hfar)
    norm_num
  rw [decide_eq_false hnot] at hlt
  unfold remainder
  dsimp only
  rw [if_neg (by simp [hlt])]
  exact hsub

/-- The number of whole steps below the end of the axis survives the division. -/
theorem exists_quotient {hi step : Binary64} {n s : Nat} (hhi : hi.HasValue (n - 1 / 2))
    (hstep : step.HasValue s) (hn : 1 ≤ n) (hn' : n ≤ 2 ^ 40) (hs : 1 ≤ s) (hs' : s ≤ 2 ^ 40) :
    ∃ t, (hi / step).HasValue t ∧ t.floor = ((n - 1) / s : Nat) := by
  have hsr : (1 : Rat) ≤ s := by exact_mod_cast hs
  have hsr' : (s : Rat) ≤ 2 ^ 40 := by exact_mod_cast hs'
  have hnr : (1 : Rat) ≤ n := by exact_mod_cast hn
  have hnr' : (n : Rat) ≤ 2 ^ 40 := by exact_mod_cast hn'
  have hs0 : (0 : Rat) < s := by linarith
  have hlow := Nat.div_mul_le_self (n - 1) s
  have hhigh := Nat.lt_div_mul_add hs (a := n - 1)
  have hquotient : (n - 1) / s ≤ n - 1 := Nat.div_le_self _ _
  generalize hj : (n - 1) / s = j at hlow hhigh hquotient ⊢
  have hlowr : (j : Rat) * s + 1 ≤ n := by exact_mod_cast by omega
  have hhighr : (n : Rat) ≤ j * s + s := by exact_mod_cast by omega
  obtain ⟨sign, hdiv⟩ := hhi.div_eq hstep hs0.ne'
  obtain ⟨t, ht, htlow, _⟩ := ofRat_between sign (q := (n - 1 / 2) / s)
    (representable_natCast (n := j) (by simp only [significands]; omega))
    (representable_natCast (n := n) (by simp only [significands]; omega))
    (by rw [le_div_iff₀ hs0]; linarith)
    (by rw [div_le_iff₀ hs0]; nlinarith)
  have hsmall : (2 : Rat) ^ (-1022 : Int) ≤ (n - 1 / 2) / s := by
    refine two_zpow_le ?_
    rw [le_div_iff₀ hs0]
    nlinarith
  have herror := ofRat_error ht hsmall
  refine ⟨t, hdiv ▸ ht, floor_eq_of_between (by exact_mod_cast htlow) ?_⟩
  rw [abs_le] at herror
  -- the exact quotient is below the next integer by half a step, and rounding is finer than that
  have hexact : (n - 1 / 2 : Rat) / s * s = n - 1 / 2 := div_mul_cancel₀ _ hs0.ne'
  have hts : t * s ≤ (n - 1 / 2) + (n - 1 / 2) / 2 ^ 53 := by
    have h := mul_le_mul_of_nonneg_right herror.2 hs0.le
    rw [sub_mul, hexact, div_mul_eq_mul_div, hexact] at h
    linarith
  have hless : t * s < (j + 1) * s := by
    have hfine : (n - 1 / 2 : Rat) / 2 ^ 53 < 1 / 2 := by
      rw [div_lt_iff₀ (by positivity)]
      linarith
    linarith
  have := lt_of_mul_lt_mul_right hless hs0.le
  exact_mod_cast this

theorem lastMultiple_hasValue {hi step : Binary64} {n s : Nat} (hhi : hi.HasValue (n - 1 / 2))
    (hstep : step.HasValue s) (hn : 1 ≤ n) (hn' : n ≤ 2 ^ 40) (hs : 1 ≤ s) (hs' : s ≤ 2 ^ 40) :
    (lastMultiple hi step).HasValue ((n - 1) / s * s : Nat) := by
  obtain ⟨t, ht, hfloor⟩ := exists_quotient hhi hstep hn hn' hs hs'
  have hlow := Nat.div_mul_le_self (n - 1) s
  have hhigh := Nat.lt_div_mul_add hs (a := n - 1)
  have hmultiple : (t.floor : Rat) * s = ((n - 1) / s * s : Nat) := by
    rw [hfloor, Int.cast_natCast, Nat.cast_mul]
  generalize (n - 1) / s * s = j at hlow hhigh hmultiple ⊢
  have hhighr : (n : Rat) ≤ j + s := by exact_mod_cast by omega
  have hrest : (n - 1 / 2 - j : Rat) = ((2 * n - 1 - 2 * j : Int) : Rat) / 2 := by
    push_cast
    ring
  have hgap : (n - 1 / 2 - j - s : Rat) = ((2 * n - 1 - 2 * j - 2 * s : Int) : Rat) / 2 := by
    push_cast
    ring
  have hj : Representable (j : Rat) :=
    representable_natCast (by simp only [significands]; omega)
  have hrepresentable : Representable (n - 1 / 2 - j) :=
    representable_half (by simp only [significands]; omega) hrest
  have hremainder := remainder_hasValue hhi hstep ht (hmultiple ▸ hj)
    (by rw [hmultiple]; exact hrepresentable)
    (by rw [hmultiple]; exact representable_half (by simp only [significands]; omega) hgap)
    (by
      rw [hmultiple, abs_of_nonpos (by linarith)]
      linarith)
  rw [hmultiple] at hremainder
  have hvalue : (n - 1 / 2 - (n - 1 / 2 - j) : Rat) = j := by ring
  have h := hhi.sub hremainder (by rw [hvalue]; exact hj)
  rw [hvalue] at h
  exact h

theorem firstMultiple_eq {step : Binary64} {s : Nat} (hstep : step.HasValue s) (hs : 1 ≤ s)
    (hs' : s ≤ 2 ^ 40) : firstMultiple (-oneHalf) step = ofNat 0 := by
  have hsr : (1 : Rat) ≤ s := by exact_mod_cast hs
  have hsr' : (s : Rat) ≤ 2 ^ 40 := by exact_mod_cast hs'
  have hs0 : (0 : Rat) < s := by linarith
  obtain ⟨t, ht, htlow, hthigh⟩ := low_hasValue.div_between hstep hs0.ne'
    (representable_half (c := -1) (q := -(1 / 2)) (by decide) (by norm_num))
    (representable_div_two_pow (c := -1) (k := 41) (by decide) (by decide))
    (by rw [le_div_iff₀ hs0]; linarith)
    (by rw [div_le_iff₀ hs0]; norm_num; linarith)
  have hfloor : t.floor = -1 := by
    refine floor_eq_of_between ?_ ?_
    · push_cast
      linarith
    · push_cast at hthigh ⊢
      refine lt_of_le_of_lt hthigh ?_
      norm_num
  have hmultiple : (t.floor : Rat) * s = -s := by
    rw [hfloor]
    push_cast
    ring
  have hwhole : Representable (-(s : Rat)) :=
    representable_neg (representable_natCast (by simp only [significands]; omega))
  have hrest : (-(1 / 2) - -s : Rat) = ((2 * s - 1 : Int) : Rat) / 2 := by
    push_cast
    ring
  have hgap : (-(1 / 2) - -s - s : Rat) = -(1 / 2) := by ring
  have hremainder := remainder_hasValue low_hasValue hstep ht
    (by rw [hmultiple]; exact hwhole)
    (by rw [hmultiple]; exact representable_half (by simp only [significands]; omega) hrest)
    (by rw [hmultiple, hgap]; exact low_hasValue.representable)
    (by
      rw [hmultiple, hgap, abs_neg, abs_of_pos (by norm_num)]
      norm_num)
  rw [hmultiple] at hremainder
  have hvalue : (-(1 / 2) - (-(1 / 2) - -s) : Rat) = -s := by ring
  have hsub := low_hasValue.sub hremainder (by rw [hvalue]; exact hwhole)
  rw [hvalue] at hsub
  have hlt := hsub.lt_eq low_hasValue
  rw [decide_eq_true (by linarith)] at hlt
  unfold firstMultiple
  dsimp only
  rw [if_pos hlt, hsub.add_eq hstep, hstep.isNegative_of_pos hs0, Bool.and_false,
    neg_add_cancel, ofNat_eq_ofRat]
  rfl

theorem firstMultiple_hasValue {step : Binary64} {s : Nat} (hstep : step.HasValue s) (hs : 1 ≤ s)
    (hs' : s ≤ 2 ^ 40) : (firstMultiple (-oneHalf) step).HasValue 0 := by
  rw [firstMultiple_eq hstep hs hs']
  exact ofNat_hasValue (by decide)

/-! ## Counting -/

/-- What a number of steps is of a whole, counted in parts of the whole again, is more than that
number by a quarter at most. -/
theorem exists_share {span whole : Binary64} {j s p : Nat} (hspan : span.HasValue (j * s : Nat))
    (hwhole : whole.HasValue (s * p : Nat)) (hs : 1 ≤ s) (hp : 1 ≤ p) (hp' : p ≤ 10)
    (hj : j ≤ 2 ^ 40) : ∃ r, (span / whole).HasValue r ∧ 0 ≤ r ∧ r * p ≤ j + 1 / 4 := by
  have hs0 : (0 : Rat) < s := by exact_mod_cast hs
  have hp0 : (0 : Rat) < p := by exact_mod_cast hp
  have hjr : (j : Rat) ≤ 2 ^ 40 := by exact_mod_cast hj
  have hpr : (1 : Rat) ≤ p := by exact_mod_cast hp
  have hpr' : (p : Rat) ≤ 10 := by exact_mod_cast hp'
  have hshare : ((j * s : Nat) : Rat) / (s * p : Nat) = j / p := by
    push_cast
    field_simp
  obtain ⟨sign, hdiv⟩ := hspan.div_eq hwhole (by positivity)
  rw [hshare] at hdiv
  have hsize : (j : Rat) / p = 0 ∨ 1 / 2 ^ 64 ≤ (j : Rat) / p := by
    rcases Nat.eq_zero_or_pos j with rfl | hj0
    · exact .inl (by simp)
    · have hj1 : (1 : Rat) ≤ j := by exact_mod_cast hj0
      refine .inr ?_
      rw [le_div_iff₀ hp0]
      linarith
  have hlarge : (j : Rat) / p ≤ 2 ^ 70 := by
    rw [div_le_iff₀ hp0]
    nlinarith
  obtain ⟨r, hr, hpos, hupper⟩ := exists_rounded sign hsize hlarge
  refine ⟨r, hdiv ▸ hr, hpos, ?_⟩
  have h := mul_le_mul_of_nonneg_right hupper hp0.le
  have hexact : (j : Rat) / p * p = j := div_mul_cancel₀ _ hp0.ne'
  rw [add_mul, div_mul_eq_mul_div _ (2 ^ 53 : Rat), hexact] at h
  linarith

theorem countOf_le {hi whole part : Binary64} {n s p : Nat} (hhi : hi.HasValue (n - 1 / 2))
    (hwhole : whole.HasValue (s * p : Nat)) (hpart : part.HasValue p) (hn : 1 ≤ n)
    (hn' : n ≤ 2 ^ 40) (hs : 1 ≤ s) (hs' : s ≤ 2 ^ 40) (hp : 1 ≤ p) (hp' : p ≤ 10) :
    (countOf (-oneHalf) hi whole part).toNat64 ≤ n := by
  have hp0 : (0 : Rat) < p := by exact_mod_cast hp
  have hstep : (whole / part).HasValue s := by
    have hvalue : ((s * p : Nat) : Rat) / p = s := by
      push_cast
      field_simp
    have h := hwhole.div hpart hp0.ne'
      (by rw [hvalue]; exact representable_natCast (by simp only [significands]; omega))
    rwa [hvalue] at h
  have hfirst := firstMultiple_hasValue hstep hs hs'
  have hlast := lastMultiple_hasValue hhi hstep hn hn' hs hs'
  have hj : (n - 1) / s * s ≤ n - 1 := Nat.div_mul_le_self (n - 1) s
  have hquotient : (n - 1) / s ≤ n - 1 := Nat.div_le_self _ _
  generalize (n - 1) / s = j at hlast hj hquotient
  have hspan := hlast.sub hfirst
    (by rw [sub_zero]; exact representable_natCast (by simp only [significands]; omega))
  rw [sub_zero] at hspan
  obtain ⟨r₁, hr₁, hpos₁, hback⟩ := exists_share hspan hwhole hs hp hp' (by omega)
  obtain ⟨r₂, hr₂, hpos₂, hupper₂⟩ := hr₁.mul_between hpart representable_zero
    (representable_div_two_pow (c := 4 * j + 1) (k := 2) (by simp only [significands]; omega)
      (by decide))
    (by positivity) (by push_cast; linarith)
  obtain ⟨r₃, hr₃, hpos₃, hupper₃⟩ := one_hasValue.add_between hr₂ representable_zero
    (representable_div_two_pow (c := 4 * j + 5) (k := 2) (by simp only [significands]; omega)
      (by decide))
    (by linarith) (by push_cast at hupper₂ ⊢; linarith)
  have hround := hr₃.round
  push_cast at hupper₃
  have hless : roundAway r₃ ≤ j + 1 := by
    rw [roundAway_of_nonneg hpos₃]
    refine Int.le_of_lt_add_one (Rat.floor_lt_iff.mpr ?_)
    push_cast
    linarith
  have hnonneg : 0 ≤ roundAway r₃ := by
    rw [roundAway_of_nonneg hpos₃, Rat.le_floor_iff]
    push_cast
    linarith
  have hcount := hround.toNat64_eq (by exact_mod_cast hnonneg)
  rw [Rat.floor_intCast] at hcount
  have hcountOf : (countOf (-oneHalf) hi whole part).toNat64 = _ := hcount
  rw [hcountOf]
  omega

/-! ## Half steps -/

theorem remainder_half {a step : Binary64} {d : Int} (ha : a.HasValue (d / 2))
    (hstep : step.HasValue (1 / 2)) (hd : |(d / 2 : Rat)| ≤ 2 ^ 80) :
    (remainder a step).HasValue 0 := by
  have hvalue : (d / 2 : Rat) / (1 / 2) = d := by ring
  have hdouble : Representable (d : Rat) := by
    have h := representable_double ha.representable hd
    rwa [mul_div_cancel₀ (d : Rat) two_ne_zero] at h
  have hdiv := ha.div hstep (by norm_num) (by rw [hvalue]; exact hdouble)
  rw [hvalue] at hdiv
  have hmultiple : ((d : Rat).floor : Rat) * (1 / 2) = d / 2 := by
    rw [Rat.floor_intCast]
    ring
  have h := remainder_hasValue ha hstep hdiv
    (by rw [hmultiple]; exact ha.representable)
    (by rw [hmultiple, sub_self]; exact representable_natCast (n := 0) (by decide))
    (by rw [hmultiple, sub_self, zero_sub]; exact low_hasValue.representable)
    (by
      rw [hmultiple, sub_self, zero_sub, abs_neg, abs_of_pos (by norm_num)]
      norm_num)
  rwa [hmultiple, sub_self] at h

/-- The end of the axis for any number of bars: a multiple of one half close to one half below that
number. -/
theorem exists_high {n : Nat} (hn : 1 ≤ n) (hn' : n < 2 ^ 63) :
    ∃ h : Rat, (Binary64.ofNat n - oneHalf).HasValue h ∧ (∃ d : Int, h = d / 2) ∧
      (n - 1 / 2 : Rat) - n / 2 ^ 51 ≤ h ∧ h ≤ 2 ^ 64 := by
  have hnr : (1 : Rat) ≤ n := by exact_mod_cast hn
  have hnr' : (n : Rat) < 2 ^ 63 := by exact_mod_cast hn'
  obtain ⟨N, hN, hNpos, hNlow, hNhigh⟩ := exists_close false (q := n) (by norm_num; linarith)
    (by linarith)
  rw [← ofNat_eq_ofRat] at hN
  obtain ⟨c, hc⟩ := exists_half_of_hasValue (c := 2 * n) (by rw [← ofNat_eq_ofRat]; exact hN)
    (by linarith) (by push_cast; ring)
  obtain ⟨h, hh, _, hlow, hhigh⟩ := hN.sub_close oneHalf_hasValue (by linarith) (by linarith)
  obtain ⟨s, hsub⟩ := hN.sub_eq oneHalf_hasValue
  obtain ⟨d, hd⟩ := exists_half_of_hasValue (c := c - 1) (hsub ▸ hh) (by linarith)
    (by rw [hc]; push_cast; ring)
  exact ⟨h, hh, ⟨d, hd⟩, by linarith, by linarith⟩

theorem exists_length {n : Nat} (hn : 1 ≤ n) (hn' : n < 2 ^ 63) :
    ∃ c : Rat, (ofNat n - oneHalf - -oneHalf).HasValue c ∧ (n : Rat) - n / 2 ^ 49 ≤ c ∧
      c ≤ 2 ^ 65 := by
  have hnr : (1 : Rat) ≤ n := by exact_mod_cast hn
  obtain ⟨h, hhi, _, hlow, hhigh⟩ := exists_high hn hn'
  obtain ⟨c, hc, _, hclow, hchigh⟩ := hhi.sub_close low_hasValue (by linarith) (by linarith)
  exact ⟨c, hc, by linarith, by linarith⟩

theorem lt_countOf_half {whole : Binary64} {n : Nat} (hwhole : whole.HasValue 1) (hn : 1 ≤ n)
    (hn' : n < 2 ^ 63) :
    n < (countOf (-oneHalf) (Binary64.ofNat n - oneHalf) whole 2).toNat64 := by
  have hnr : (1 : Rat) ≤ n := by exact_mod_cast hn
  have hnr' : (n : Rat) < 2 ^ 63 := by exact_mod_cast hn'
  obtain ⟨h, hhi, ⟨d, hd⟩, hlow, hhigh⟩ := exists_high hn hn'
  generalize Binary64.ofNat n - oneHalf = hi at hhi ⊢
  have hstep : (whole / 2).HasValue (1 / 2) :=
    hwhole.div two_hasValue two_ne_zero oneHalf_hasValue.representable
  have hpos : 0 ≤ h := by linarith
  have hlastRest := remainder_half (hd ▸ hhi) hstep (by rw [← hd, abs_of_nonneg hpos]; linarith)
  have hfirstRest := remainder_half (a := -oneHalf) (d := -1)
    (by norm_num; exact low_hasValue) hstep (by norm_num)
  have hlast : (lastMultiple hi (whole / 2)).HasValue h := by
    have h' := hhi.sub hlastRest (by rw [sub_zero]; exact hhi.representable)
    rwa [sub_zero] at h'
  have hm := low_hasValue.sub hfirstRest (by rw [sub_zero]; exact low_hasValue.representable)
  rw [sub_zero] at hm
  have hfirst : firstMultiple (-oneHalf) (whole / 2) =
      -oneHalf - remainder (-oneHalf) (whole / 2) := by
    have hlt := hm.lt_eq low_hasValue
    rw [decide_eq_false (lt_irrefl _)] at hlt
    unfold firstMultiple
    dsimp only
    rw [if_neg (by simp [hlt])]
  rw [← hfirst] at hm
  obtain ⟨c, hc, _, hclow, hchigh⟩ := hlast.sub_close hm (by linarith) (by linarith)
  have hdiv := hc.div hwhole one_ne_zero (by rw [div_one]; exact hc.representable)
  rw [div_one] at hdiv
  have hdouble : Representable (c * 2) := by
    rw [mul_comm]
    exact representable_double hc.representable (by rw [abs_of_nonneg (by linarith)]; linarith)
  obtain ⟨u, hu, _, hulow, huhigh⟩ :=
    one_hasValue.add_close (hdiv.mul two_hasValue hdouble) (by linarith) (by linarith)
  have hround := hu.round
  have hnear := roundAway_near u
  rw [abs_le] at hnear
  have hmore : (n : Rat) < roundAway u := by linarith
  have hmore' : (n : Int) < roundAway u := by exact_mod_cast hmore
  have hcount := hround.toNat64_eq (by linarith)
  rw [Rat.floor_intCast] at hcount
  have hcountOf : (countOf (-oneHalf) hi whole 2).toNat64 = _ := hcount
  rw [hcountOf]
  simp only [UInt64.size]
  omega

end RehashChart.KeyPoints
