import RehashChart.Json.Decode
import RehashChart.Proofs.Binary64.Closeness
import RehashChart.Proofs.Json.Written

/-! # What a number in a text is worth

The digits and the power of ten are both rounded before they are multiplied or divided, so a number
that is written and read again may come back in its last digits; it is the same if its digits and
its power of ten are numbers themselves.
-/

namespace RehashChart.Json

open Binary64 (Close IsMagnitude Representable RoundsTo digitsToNat significands)

/-! ## The digits taken -/

theorem takeDigits_eq {digits : List Char} {value : Nat}
    (h : Nat.ofDigitChars 10 digits value < UInt64.size) :
    takeDigits value digits = (Nat.ofDigitChars 10 digits value, []) := by
  induction digits generalizing value with
  | nil => rfl
  | cons c cs ih =>
      have hle := Text.le_ofDigitChars cs (10 * value + Text.digitValue c)
      have hnext : 10 * value + Text.digitValue c < UInt64.size := lt_of_le_of_lt hle h
      rw [takeDigits, if_pos hnext]
      exact ih h

/-- With few digits and no exponent beyond all bounds, all of a number counts. -/
theorem Numeral.toFloat_eq {n : Numeral} (hfew : n.significand < UInt64.size)
    (hexponent : n.writtenExponent.natAbs ≤ greatestExponent)
    (hpower : n.power.natAbs ≤ greatestExponent) :
    n.toFloat = (scale (.ofNat n.significand) n.power).map fun x =>
      if n.negative then x.neg else x := by
  have hsplit : n.significand = Nat.ofDigitChars 10 n.fraction (digitsToNat n.whole) :=
    Nat.ofDigitChars_append 0
  have hwhole : takeDigits 0 n.whole = (digitsToNat n.whole, []) := by
    refine takeDigits_eq (lt_of_le_of_lt ?_ hfew)
    rw [hsplit]
    exact Text.le_ofDigitChars n.fraction _
  have hfraction : takeDigits (digitsToNat n.whole) n.fraction = (n.significand, []) := by
    rw [hsplit] at hfew ⊢
    exact takeDigits_eq hfew
  rw [Numeral.toFloat, hwhole]
  dsimp only
  rw [hfraction]
  dsimp only
  congr 1
  rw [Numeral.power] at hpower ⊢
  rw [Numeral.writtenExponent] at hexponent hpower ⊢
  cases hwritten : n.exponent with
  | none => simp
  | some p =>
      obtain ⟨negative, digits⟩ := p
      rw [hwritten] at hexponent hpower
      simp only [Option.map_some, Option.getD_some] at hexponent hpower ⊢
      rw [if_neg (by cases negative <;> simp at hexponent <;> omega)]
      congr 1
      rw [clampExponent]
      simp only [List.length_nil]
      omega

/-! ## Digits and powers of ten as numbers -/

theorem two_zpow_le_one : (2 : Rat) ^ (-1022 : Int) ≤ 1 := by
  calc (2 : Rat) ^ (-1022 : Int) ≤ 2 ^ (0 : Int) := zpow_le_zpow_right₀ one_le_two (by decide)
    _ = 1 := zpow_zero 2

theorem natCast_large (n : Nat) : (n : Rat) = 0 ∨ (2 : Rat) ^ (-1022 : Int) ≤ n := by
  rcases Nat.eq_zero_or_pos n with rfl | hpos
  · exact .inl Nat.cast_zero
  · exact .inr (two_zpow_le_one.trans (by exact_mod_cast hpos))

theorem exists_rounded_nat {n : Nat} {high : Rat} (hhigh : Representable high) (hn : n ≤ high) :
    ∃ r, (Binary64.ofRat false n).IsMagnitude r ∧ Close 1 0 n r ∧ (1 ≤ n → 1 ≤ r) ∧
      (Representable n → r = n) := by
  obtain ⟨r, hrounds, hvalue⟩ :=
    Binary64.exists_isMagnitude_ofRat (Nat.cast_nonneg n) hhigh hn
  refine ⟨r, hvalue, hrounds.close_of_large (natCast_large n), ?_, hrounds.exact⟩
  intro hone
  have hself : RoundsTo 1 1 :=
    Binary64.roundsTo_self (by simpa using Binary64.representable_natCast (n := 1) (by decide))
  exact hself.mono hrounds (by exact_mod_cast hone)

theorem exists_significand {n : Nat} (hn : n ≤ 10 ^ 17) :
    ∃ s, (Binary64.ofNat n).IsMagnitude s ∧ Close 1 0 n s ∧ (1 ≤ n → 1 ≤ s) ∧
      (n < significands → s = n) := by
  have hhigh : (n : Rat) ≤ 2 ^ 57 := by
    exact_mod_cast hn.trans (by decide)
  obtain ⟨s, hvalue, hclose, hone, hexact⟩ :=
    exists_rounded_nat (Binary64.representable_two_pow (by decide)) hhigh
  rw [Binary64.ofNat_eq_ofRat]
  exact ⟨s, hvalue, hclose, hone, fun h => hexact (Binary64.representable_natCast h)⟩

theorem exists_powerOfTen {k : Nat} (hk : k ≤ greatestPower) :
    ∃ p, (powerOfTen k).IsMagnitude p ∧ Close 1 0 (10 ^ k) p ∧ 1 ≤ p ∧ (k ≤ 22 → p = 10 ^ k) := by
  have hhigh : Representable ((6755399441055744 : Int) * 2 ^ (971 : Int)) :=
    ⟨_, _, by decide, by decide, by decide, rfl⟩
  have hpower : ((10 ^ k : Nat) : Rat) ≤ (6755399441055744 : Int) * 2 ^ (971 : Int) := by
    have hnat : 10 ^ k ≤ 6755399441055744 * 2 ^ 971 :=
      (Nat.pow_le_pow_right (by decide) hk).trans (by decide +kernel)
    refine (Nat.cast_le.mpr hnat).trans_eq ?_
    rw [Nat.cast_mul, Nat.cast_pow, ← zpow_natCast]
    rfl
  obtain ⟨p, hvalue, hclose, hone, hexact⟩ := exists_rounded_nat hhigh hpower
  have hten : powerOfTen k = Binary64.ofRat false ((10 ^ k : Nat) : Rat) := by
    rw [powerOfTen, Binary64.tenTo_eq, zpow_natCast]
    push_cast
    rfl
  push_cast at hclose
  rw [hten]
  refine ⟨p, hvalue, hclose, hone (Nat.one_le_pow _ _ (by decide)), fun h => ?_⟩
  rw [hexact (Binary64.representable_power h)]
  push_cast
  rfl

/-! ## Scaling -/

/-- Scaling gives a number close to the exact value, and the exact value rounded once if the digits
and the power of ten are few enough. -/
structure ScalesTo (significand : Nat) (power : Int) (y : Binary64) (r : Rat) : Prop where
  magnitude : y.IsMagnitude r
  close : Close 5 2 (significand * 10 ^ power) r
  exact : significand < significands → power.natAbs ≤ 22 → RoundsTo (significand * 10 ^ power) r

section Scaling

variable {n k : Nat} {e : Int}

theorem zpow_neg_natCast (k : Nat) : (n : Rat) * 10 ^ (-k : Int) = n / 10 ^ k := by
  rw [zpow_neg, zpow_natCast, div_eq_mul_inv]

theorem scale_natCast (hn : n ≤ 10 ^ 17) (hk : k ≤ greatestPower)
    (hfinite : (scale (.ofNat n) k).isSome = true) :
    ∃ y r, scale (.ofNat n) k = some y ∧ ScalesTo n k y r := by
  obtain ⟨s, hs, hsclose, _, hsexact⟩ := exists_significand hn
  obtain ⟨p, hp, hpclose, _, hpexact⟩ := exists_powerOfTen hk
  have hscale : scale (.ofNat n) k =
      if (Binary64.ofNat n * powerOfTen k).isFinite then some (Binary64.ofNat n * powerOfTen k)
      else none := by
    rw [scale, if_pos (Int.natCast_nonneg k), if_pos (Int.ofNat_le.mpr hk), Int.toNat_natCast]
  have hproduct := hs.mul_eq hp
  obtain ⟨r, hrounds, ⟨-, hr⟩ | ⟨-, hinfinite⟩⟩ := Binary64.ofRat_spec false (s * p)
  · rw [← hproduct] at hr
    have hpos := mul_nonneg hs.nonneg hp.nonneg
    have hclose : Close 2 0 (n * 10 ^ k) (s * p) :=
      hsclose.mul hpclose (Nat.cast_nonneg n) hs.nonneg (by positivity) hp.nonneg
    refine ⟨_, r, by rw [hscale, if_pos hr.finite], ⟨hr, ?_⟩, ?_, ?_⟩
    · rw [hproduct]
      exact Binary64.isNegative_ofRat hpos
    · rw [zpow_natCast]
      exact (hclose.trans (hrounds.close hpos)).mono (by decide) (by decide) (by positivity)
        (hrounds.nonneg hpos)
    · intro hfew hsmall
      rw [hsexact hfew, hpexact (by omega)] at hrounds
      rwa [zpow_natCast]
  · simp [hscale, hproduct, hinfinite, Binary64.isFinite] at hfinite

theorem scale_of_small (hk : 0 < k) (x : Binary64) :
    scale x (-k : Int) = scale.scaleDown x k := by
  rw [scale, if_neg (by omega), Int.natAbs_neg, Int.natAbs_natCast]

theorem scaleDown_of_le (hk : k ≤ greatestPower) (x : Binary64) :
    scale.scaleDown x k = some (x / powerOfTen k) := by
  rw [scale.scaleDown, if_pos hk]

theorem scale_neg (hn : n ≤ 10 ^ 17) (hpos : 0 < k) (hk : k ≤ greatestPower) :
    ∃ y r, scale (.ofNat n) (-k : Int) = some y ∧ ScalesTo n (-k : Int) y r := by
  obtain ⟨s, hs, hsclose, _, hsexact⟩ := exists_significand hn
  obtain ⟨p, hp, hpclose, hone, hpexact⟩ := exists_powerOfTen hk
  have hp0 : 0 < p := lt_of_lt_of_le one_pos hone
  obtain ⟨r, hrounds, hr⟩ := hs.exists_div hp hone
  have hquotient := div_nonneg hs.nonneg hp0.le
  have hclose : Close 2 0 (n / 10 ^ k) (s / p) :=
    (hpclose.div_left (Nat.cast_nonneg n) (by positivity) hp0).trans (hsclose.div_right hone)
  refine ⟨_, r, by rw [scale_of_small hpos, scaleDown_of_le hk], hr, ?_, ?_⟩
  · rw [zpow_neg_natCast]
    exact (hclose.trans (hrounds.close hquotient)).mono (by decide) (by decide) (by positivity)
      (hrounds.nonneg hquotient)
  · intro hfew hsmall
    rw [hsexact hfew, hpexact (by omega)] at hrounds
    rwa [zpow_neg_natCast]

/-- Beyond the greatest power of ten a number is divided twice, and rounded twice. -/
theorem scale_neg_beyond (hn : n ≤ 10 ^ 17) (hlow : greatestPower < k)
    (hk : k ≤ greatestPower + greatestPower) :
    ∃ y r, scale (.ofNat n) (-k : Int) = some y ∧ ScalesTo n (-k : Int) y r := by
  obtain ⟨s, hs, hsclose, hsone, hsexact⟩ := exists_significand hn
  have hlarge : 22 < k := lt_trans (by decide) hlow
  have heq : (Binary64.ofNat n).eq 0 = decide (s = 0) := hs.value.eq_eq Binary64.zero_hasValue
  have hscale : scale (.ofNat n) (-k : Int) =
      if s = 0 then some (Binary64.ofNat n)
      else scale.scaleDown (Binary64.ofNat n / powerOfTen greatestPower) (k - greatestPower) := by
    rw [scale_of_small (by omega), scale.scaleDown, if_neg (Nat.not_le.mpr hlow), heq]
    simp only [decide_eq_true_eq]
  rcases Nat.eq_zero_or_pos n with rfl | hpos
  · have hzero : s = 0 := by simpa using hsexact (by decide)
    refine ⟨_, s, by rw [hscale, if_pos hzero], hs, ?_, fun _ hsmall => by omega⟩
    rw [hzero, Nat.cast_zero, zero_mul]
    constructor <;> simp [Binary64.halfUnit_pos.le]
  · have hne : s ≠ 0 := (lt_of_lt_of_le one_pos (hsone hpos)).ne'
    obtain ⟨p, hp, hpclose, hpone, _⟩ := exists_powerOfTen (le_refl greatestPower)
    obtain ⟨u, hu, huclose, huone, _⟩ := exists_powerOfTen (k := k - greatestPower) (by omega)
    have hp0 : 0 < p := lt_of_lt_of_le one_pos hpone
    have hu0 : 0 < u := lt_of_lt_of_le one_pos huone
    obtain ⟨z, hzrounds, hz⟩ := hs.exists_div hp hpone
    obtain ⟨r, hrounds, hr⟩ := hz.exists_div hu huone
    have hfirst : Close 3 1 (n / 10 ^ greatestPower) z :=
      ((hpclose.div_left (Nat.cast_nonneg n) (by positivity) hp0).trans
        (hsclose.div_right hpone)).trans (hzrounds.close (div_nonneg hs.nonneg hp0.le))
    have hsecond : Close 4 1 (n / 10 ^ greatestPower / 10 ^ (k - greatestPower)) (z / u) :=
      (huclose.div_left (by positivity) (by positivity) hu0).trans (hfirst.div_right huone)
    have hvalue : (n : Rat) / 10 ^ greatestPower / 10 ^ (k - greatestPower) = n / 10 ^ k := by
      rw [div_div, ← pow_add, Nat.add_sub_cancel' hlow.le]
    rw [hvalue] at hsecond
    refine ⟨_, r, by rw [hscale, if_neg hne, scaleDown_of_le (by omega)], hr, ?_,
      fun _ hsmall => by omega⟩
    rw [zpow_neg_natCast]
    exact hsecond.trans (hrounds.close (div_nonneg hz.nonneg hu0.le))

theorem isSome_scale_of_le {q : Rat} (hn : n ≤ 10 ^ 17) (hk : k ≤ greatestPower)
    (hrounds : RoundsTo (n * 10 ^ k) q) (hq : q ≤ (significands - 4) * 2 ^ (971 : Int)) :
    (scale (.ofNat n) k).isSome = true := by
  obtain ⟨s, hs, hsclose, _, _⟩ := exists_significand hn
  obtain ⟨p, hp, hpclose, _, _⟩ := exists_powerOfTen hk
  have hlarge := natCast_large (n * 10 ^ k)
  simp only [Nat.cast_mul, Nat.cast_pow, Nat.cast_ofNat] at hlarge
  have hclose : Close 3 0 q (s * p) :=
    ((hsclose.mul hpclose (Nat.cast_nonneg n) hs.nonneg (by positivity) hp.nonneg).symm.trans
      (hrounds.close_of_large hlarge)).symm
  have hunit : (0 : Rat) < 2 ^ (971 : Int) := by positivity
  have hproduct : s * p ≤ (significands - 1 : Int) * 2 ^ (971 : Int) := by
    have hthree : (significands - 4 : Rat) ≤ (significands - 1 : Int) * Binary64.kept ^ 3 := by
      norm_num [significands, Binary64.kept]
    have hbound := hclose.high
    rw [Nat.cast_zero, zero_mul, add_zero] at hbound
    refine le_of_mul_le_mul_right ?_ (pow_pos Binary64.kept_pos 3)
    calc s * p * Binary64.kept ^ 3 ≤ (significands - 4) * 2 ^ (971 : Int) := hbound.trans hq
      _ ≤ (significands - 1 : Int) * Binary64.kept ^ 3 * 2 ^ (971 : Int) :=
          mul_le_mul_of_nonneg_right hthree hunit.le
      _ = (significands - 1 : Int) * 2 ^ (971 : Int) * Binary64.kept ^ 3 := by ring
  obtain ⟨r, _, hr⟩ := hs.exists_mul hp ⟨_, _, by decide, by decide, by decide, rfl⟩ hproduct
  rw [scale, if_pos (Int.natCast_nonneg k), if_pos (Int.ofNat_le.mpr hk), Int.toNat_natCast]
  dsimp only
  rw [if_pos hr.value.finite]
  rfl

theorem exists_scale (hn : n ≤ 10 ^ 17) (hlow : -616 ≤ e) (hhigh : e ≤ 308)
    (hfinite : 0 ≤ e → (scale (.ofNat n) e).isSome = true) :
    ∃ y r, scale (.ofNat n) e = some y ∧ ScalesTo n e y r := by
  rcases le_or_gt 0 e with hpos | hneg
  · obtain ⟨k, rfl⟩ := Int.eq_ofNat_of_zero_le hpos
    exact scale_natCast hn (by rw [greatestPower]; omega) (hfinite hpos)
  · obtain ⟨k, hk⟩ := Int.eq_ofNat_of_zero_le (neg_nonneg.mpr hneg.le)
    have he : e = -k := by omega
    subst he
    by_cases hnear : k ≤ greatestPower
    · exact scale_neg hn (by omega) hnear
    · exact scale_neg_beyond hn (Nat.lt_of_not_le hnear) (by rw [greatestPower]; omega)

end Scaling

/-! ## Numbers that are written -/

/-- The three greatest numbers, for which the bound on the roundings is too wide. -/
theorem isSome_scale_greatest : ∀ s : Bool,
    ∀ m ∈ [9007199254740989, 9007199254740990, 9007199254740991],
      (scale (.ofNat (numeralOf s m 971).significand) (numeralOf s m 971).power).isSome = true := by
  decide +kernel

section Written

variable {m : Nat} {e : Int}

theorem isSome_scale (s : Bool) (h : Binary64.Canonical m e)
    (hpower : 0 ≤ (numeralOf s m e).power) :
    (scale (.ofNat (numeralOf s m e).significand) (numeralOf s m e).power).isSome = true := by
  have htells := numeralOf_tells s h
  obtain ⟨hless, _, hmost, _⟩ := h
  have hless' : m < 9007199254740992 := hless
  by_cases htop : e = 971 ∧ 9007199254740989 ≤ m
  · obtain ⟨rfl, hm⟩ := htop
    refine isSome_scale_greatest s m ?_
    simp only [List.mem_cons, List.not_mem_nil, or_false]
    omega
  · obtain ⟨k, hk⟩ := Int.eq_ofNat_of_zero_le hpower
    have hrounds := htells.rounds
    have hhigh := htells.power.2
    rw [hk] at hhigh hrounds ⊢
    rw [zpow_natCast] at hrounds
    refine isSome_scale_of_le htells.few (by rw [greatestPower]; omega) hrounds ?_
    have hunit : (0 : Rat) < 2 ^ (970 : Int) := by positivity
    have hdouble : (2 : Rat) ^ (971 : Int) = 2 * 2 ^ (970 : Int) := Binary64.two_zpow_eq 971
    rcases (show e ≤ 970 ∨ e = 971 by omega) with hsmall | rfl
    · have hm : (m : Rat) ≤ significands := by exact_mod_cast hless.le
      have hpow : (2 : Rat) ^ e ≤ 2 ^ (970 : Int) := zpow_le_zpow_right₀ one_le_two hsmall
      have hvalue : (m : Rat) * 2 ^ e ≤ significands * 2 ^ (970 : Int) :=
        mul_le_mul hm hpow (by positivity) (Nat.cast_nonneg _)
      rw [hdouble]
      generalize (2 : Rat) ^ (970 : Int) = unit at hunit hvalue ⊢
      norm_num [significands] at hvalue ⊢
      linarith
    · have hm : (m : Rat) ≤ significands - 4 := by
        have hm' : m + 4 ≤ significands := by
          rw [significands]
          omega
        have : (m : Rat) + 4 ≤ significands := by exact_mod_cast hm'
        linarith
      gcongr

theorem worth_of_isFloat {n : Numeral} (h : n.IsFloat) : n.worth = n.toFloat.map .float := by
  rw [Numeral.worth]
  dsimp only
  rw [if_neg]
  rintro ⟨hfraction, hexponent, _⟩
  exact h.elim (fun hne => hne hfraction) fun hne => hne hexponent

theorem toNumber_of_scale (s : Bool) (h : Binary64.Canonical m e) {y : Binary64}
    (hscale : scale (.ofNat (numeralOf s m e).significand) (numeralOf s m e).power = some y) :
    (Reading.number (numeralOf s m e)).toNumber = .ok (if s then y.neg else y) := by
  have htells := numeralOf_tells s h
  obtain ⟨hlow, hhigh⟩ := htells.power
  have hfew := htells.few
  have hexponent := htells.exponent
  have hfloat := Numeral.toFloat_eq (n := numeralOf s m e)
    (by rw [UInt64.size]; omega) (by rw [greatestExponent]; omega) (by rw [greatestExponent]; omega)
  rw [hscale, numeralOf_negative] at hfloat
  rw [Reading.toNumber, worth_of_isFloat htells.float, hfloat]
  rfl

theorem toNumber_numeralOf (s : Bool) (h : Binary64.Canonical m e) :
    ∃ y r, (Reading.number (numeralOf s m e)).toNumber = .ok (if s then y.neg else y) ∧
      ScalesTo (numeralOf s m e).significand (numeralOf s m e).power y r := by
  have htells := numeralOf_tells s h
  obtain ⟨hlow, hhigh⟩ := htells.power
  obtain ⟨y, r, hscale, hy⟩ := exists_scale htells.few (by omega) hhigh (isSome_scale s h)
  exact ⟨y, r, toNumber_of_scale s h hscale, hy⟩

end Written

/-- What is left of a number that is written and read: its sign, its size but for one part in
`2 ^ 50`, and all of it if its digits as one whole number and its power of ten are small. -/
structure Returned (x y : Binary64) : Prop where
  finite : y.isFinite = true
  sign : y.isNegative = x.isNegative
  near : |y.toRat - x.toRat| ≤ |x.toRat| / 2 ^ 50 + 2 ^ (-1073 : Int)
  exact : ∀ n, readFlat (numberText x).toList = some (.number n, []) →
    n.significand < significands → n.power.natAbs ≤ 22 → y = x

section Returns

variable {m : Nat} {e : Int} {y : Binary64} {q r : Rat}

theorem signed_hasValue (s : Bool) (hy : y.IsMagnitude r) :
    (if s then y.neg else y).HasValue (Binary64.withSign s r) ∧
      (if s then y.neg else y).isNegative = s := by
  cases s with
  | false => exact ⟨hy.value, hy.sign⟩
  | true =>
      refine ⟨hy.value.neg, ?_⟩
      obtain ⟨⟨t, n, f, hd, rfl, rfl⟩, ht⟩ := And.intro hy.value.eq_finite hy.sign
      cases (ht : t = false)
      rfl

theorem abs_withSign_sub (s : Bool) (q r : Rat) :
    |Binary64.withSign s r - Binary64.withSign s q| = |r - q| := by
  cases s with
  | false => rfl
  | true => exact neg_sub_neg r q ▸ abs_sub_comm q r

theorem readFlat_numberText_nil (x : Binary64) :
    readFlat (numberText x).toList = some (numberReading x, []) := by
  have hread := readFlat_numberText x ends_nil
  rwa [List.append_nil] at hread

/-- A finite number comes back, if not always to the last bit. -/
theorem exists_returned {x : Binary64} (hx : x.isFinite = true) :
    ∃ y, (numberReading x).toNumber = .ok y ∧ Returned x y := by
  cases x with
  | nan => cases hx
  | infinity s => cases hx
  | finite s m e h =>
      have htells := numeralOf_tells s h
      obtain ⟨y, r, hnumber, hy⟩ := toNumber_numeralOf s h
      obtain ⟨hvalue, hsign⟩ := signed_hasValue s hy.magnitude
      have hx := Binary64.hasValue_finite s h
      have hq : (0 : Rat) ≤ m * 2 ^ e := by positivity
      have hexact : (0 : Rat) ≤ (numeralOf s m e).significand * 10 ^ (numeralOf s m e).power := by
        positivity
      have hclose : Close 6 3 (m * 2 ^ e) r := (htells.rounds.close hexact).symm.trans hy.close
      refine ⟨_, hnumber, hvalue.finite, hsign, ?_, ?_⟩
      · rw [hvalue.value, hx.value, abs_withSign_sub, Binary64.abs_withSign s hq]
        exact hclose.error_le (le_refl 6) (le_refl 3) hq hy.magnitude.nonneg
      · intro n hn hfew hsmall
        rw [readFlat_numberText_nil] at hn
        cases Reading.number.inj (congrArg Prod.fst (Option.some.inj hn))
        have hr := (hy.exact hfew hsmall).unique htells.rounds
        rw [hr] at hvalue
        exact hvalue.eq_of_sign hx hsign

theorem Returned.eq_of_small {s : Bool} {h : Binary64.Canonical m e}
    (hy : Returned (.finite s m e h) y) (hfew : (numeralOf s m e).significand < significands)
    (hsmall : (numeralOf s m e).power.natAbs ≤ 22) : y = .finite s m e h :=
  hy.exact _ (readFlat_numberText_nil _) hfew hsmall

/-- The parts that a finite number is written as tell the number: read exactly, they are rounded to
it. -/
theorem numberReading_inj {x x' : Binary64} (hx : x.isFinite = true) (hx' : x'.isFinite = true)
    (h : numberReading x = numberReading x') : x = x' := by
  cases x with
  | nan => cases hx
  | infinity s => cases hx
  | finite s m e hc =>
      cases x' with
      | nan => cases hx'
      | infinity s' => cases hx'
      | finite s' m' e' hc' =>
          have hparts : numeralOf s m e = numeralOf s' m' e' := Reading.number.inj h
          have hsign : s = s' := by
            have hnegative := congrArg Numeral.negative hparts
            rwa [numeralOf_negative, numeralOf_negative] at hnegative
          subst hsign
          have hrounds := (numeralOf_tells s hc').rounds
          rw [← hparts] at hrounds
          have hvalue := Binary64.hasValue_finite s hc'
          rw [hrounds.unique (numeralOf_tells s hc).rounds] at hvalue
          exact (Binary64.hasValue_finite s hc).eq_of_sign hvalue rfl

end Returns

/-! ## Whole numbers that are written -/

theorem toWord_natural {n : Nat} (hn : n < UInt32.size) :
    (Value.natural n).reading.toWord = .ok (UInt32.ofNat n) := by
  have hdigits : Nat.ofDigitChars 10 (Nat.toDigits 10 n) 0 = n := Nat.ofDigitChars_ten_toDigits
  have htake : takeDigits 0 (Nat.toDigits 10 n) = (n, []) := by
    have hall := takeDigits_eq
      (hdigits.trans_lt (lt_trans hn (by decide)))
    rwa [hdigits] at hall
  have hworth : Numeral.worth ⟨false, Nat.toDigits 10 n, [], none⟩ = some (.natural n) := by
    rw [Numeral.worth]
    dsimp only
    rw [htake]
    rfl
  rw [Value.reading, Reading.toWord, hworth]
  exact if_pos hn

end RehashChart.Json
