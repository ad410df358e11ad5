import RehashChart.Proofs.Chart.Multiples

/-! # Key points of the horizontal axis

The search for a step comes down to one by powers of ten, wherever it starts: every whole step makes
few enough points, and half steps make too many. So the key points are the places of the bars.
-/

namespace RehashChart.KeyPoints

open Binary64 BarChart

/-! ## The search -/

/-- The search for a step, without a bound on how long it takes. -/
inductive Search (lo hi : Binary64) (limit : Nat) :
    Binary64 → Binary64 → Binary64 × Binary64 → Prop where
  | stop {step grain shorter : Binary64} :
      shortenBy lo hi limit step [2, 5, 10] step = (shorter, false) →
      Search lo hi limit step grain (shorter, grain)
  | next {step grain shorter : Binary64} {result : Binary64 × Binary64} :
      shortenBy lo hi limit step [2, 5, 10] step = (shorter, true) →
      Search lo hi limit (step / 10) (grain / 10) result →
      Search lo hi limit step grain result

theorem Search.unique {lo hi : Binary64} {limit : Nat} {step grain : Binary64}
    {a b : Binary64 × Binary64} (ha : Search lo hi limit step grain a)
    (hb : Search lo hi limit step grain b) : a = b := by
  induction ha with
  | stop h =>
      cases hb with
      | stop h' =>
          rw [h] at h'
          cases h'
          rfl
      | next h' _ =>
          rw [h] at h'
          cases h'
  | next h _ ih =>
      cases hb with
      | stop h' =>
          rw [h] at h'
          cases h'
      | next _ hrest => exact ih hrest

def searchStart (lo hi : Binary64) (limit : Nat) (decade : Int) : Binary64 × Binary64 :=
  let step := powerOfTen decade
  let grain := step / 10
  if limit < 1 + ((hi - lo) / step).floor.toNat64 then (step * 10, grain * 10) else (step, grain)

theorem fractionalStep_eq (lo hi : Binary64) (limit : Nat) (decade : Int) :
    fractionalStep lo hi limit decade =
      shortenStep lo hi limit 22 (searchStart lo hi limit decade).1
        (searchStart lo hi limit decade).2 := rfl

/-! ## Powers of ten -/

def tenth : Binary64 := .ofRat false (mkRat 1 10)

/-- A step that is a power of ten, and the grain that goes with it: a tenth of it. -/
structure AtDecade (k : Nat) (step grain : Binary64) : Prop where
  step : step.HasValue (10 ^ k : Nat)
  first : k = 0 → grain = tenth
  later : ∀ j, k = j + 1 → grain.HasValue (10 ^ j : Nat)

theorem ofRat_of_ne_zero {q : Rat} (h : q ≠ 0) (s t : Bool) : ofRat s q = ofRat t q := by
  rw [ofRat, ofRat, if_neg (Rat.num_ne_zero.mpr h), if_neg (Rat.num_ne_zero.mpr h)]

theorem power_div_ten {x : Binary64} {k : Nat} (hx : x.HasValue (10 ^ (k + 1) : Nat))
    (hk : k ≤ 22) : (x / 10).HasValue (10 ^ k : Nat) := by
  have hvalue : ((10 ^ (k + 1) : Nat) : Rat) / 10 = (10 ^ k : Nat) := by
    push_cast
    rw [pow_succ]
    field_simp
  have h := hx.div ten_hasValue (by norm_num) (by rw [hvalue]; exact representable_power hk)
  rwa [hvalue] at h

theorem power_mul_ten {x : Binary64} {k : Nat} (hx : x.HasValue (10 ^ k : Nat)) (hk : k + 1 ≤ 22) :
    (x * 10).HasValue (10 ^ (k + 1) : Nat) := by
  have hvalue : ((10 ^ k : Nat) : Rat) * 10 = (10 ^ (k + 1) : Nat) := by
    push_cast
    rw [pow_succ]
  have h := hx.mul ten_hasValue (by rw [hvalue]; exact representable_power hk)
  rwa [hvalue] at h

theorem one_div_ten {x : Binary64} (hx : x.HasValue (10 ^ 0 : Nat)) : x / 10 = tenth := by
  obtain ⟨s, hdiv⟩ := hx.div_eq ten_hasValue (by norm_num)
  have hvalue : ((10 ^ 0 : Nat) : Rat) / 10 = mkRat 1 10 := by
    rw [Rat.mkRat_eq_div]
    norm_num
  rw [hdiv, hvalue, tenth]
  exact ofRat_of_ne_zero (by decide) s false

namespace AtDecade

variable {k : Nat} {step grain : Binary64}

theorem down (h : AtDecade (k + 1) step grain) (hk : k ≤ 22) :
    AtDecade k (step / 10) (grain / 10) := by
  refine ⟨power_div_ten h.step hk, ?_, ?_⟩
  · rintro rfl
    exact one_div_ten (h.later 0 rfl)
  · rintro j rfl
    exact power_div_ten (h.later (j + 1) rfl) (by omega)

theorem up (h : AtDecade k step grain) (hk : k + 1 ≤ 22) :
    AtDecade (k + 1) (step * 10) (grain * 10) := by
  refine ⟨power_mul_ten h.step hk, fun h0 => absurd h0 (Nat.succ_ne_zero k), ?_⟩
  intro j hj
  obtain rfl : k = j := by omega
  cases k with
  | zero =>
      rw [h.first rfl]
      have hone : tenth * 10 = ofNat 1 := by decide +kernel
      rw [hone]
      exact ofNat_hasValue (by decide)
  | succ k => exact power_mul_ten (h.later k rfl) (by omega)

theorem of_power {k : Nat} (hk : k ≤ 22) :
    AtDecade k (powerOfTen k) (powerOfTen k / 10) := by
  have hstep : (powerOfTen k).HasValue (10 ^ k : Nat) := by
    have hvalue : tenTo k = ((10 ^ k : Nat) : Rat) := by
      rw [tenTo_eq, zpow_natCast]
      push_cast
      rfl
    rw [powerOfTen, hvalue]
    exact ofRat_exact false (representable_power hk)
  refine ⟨hstep, ?_, ?_⟩
  · rintro rfl
    exact one_div_ten hstep
  · rintro j rfl
    exact power_div_ten hstep (by omega)

end AtDecade

/-! ## One decade -/

section Decade

variable {n : Nat} {step grain : Binary64}

theorem high_hasValue (hn : 1 ≤ n) (hn' : n ≤ 2 ^ 40) :
    (ofNat n - oneHalf).HasValue (n - 1 / 2) := by
  have hhalf : (n - 1 / 2 : Rat) = ((2 * n - 1 : Int) : Rat) / 2 := by
    push_cast
    ring
  exact (ofNat_hasValue (by simp only [significands]; omega)).sub oneHalf_hasValue
    (representable_half (by simp only [significands]; omega) hhalf)

theorem part_hasValue (p : Nat) (hp : p ≤ 10) : (ofNat p).HasValue p :=
  ofNat_hasValue (by simp only [significands]; omega)

/-- Below a step that is ten or more there are three whole steps, and none makes too many points. -/
theorem shortenBy_later {k : Nat} (hstep : step.HasValue (10 ^ (k + 1) : Nat)) (hn : 1 ≤ n)
    (hn' : n ≤ 2 ^ 40) (hk : k ≤ 11) :
    ∃ shorter, shortenBy (-oneHalf) (ofNat n - oneHalf) n step [2, 5, 10] step =
      (shorter, true) := by
  have hhi := high_hasValue hn hn'
  have hpower : 10 ^ k ≤ 10 ^ 11 := Nat.pow_le_pow_right (by decide) hk
  have hpositive : 1 ≤ 10 ^ k := Nat.pos_of_ne_zero (by positivity)
  have hten : 10 ^ (k + 1) = 10 ^ k * 10 := pow_succ 10 k
  have hcount : ∀ s p, s * p = 10 ^ (k + 1) → 1 ≤ s → s ≤ 2 ^ 40 → 1 ≤ p → p ≤ 10 →
      ¬n < (countOf (-oneHalf) (ofNat n - oneHalf) step (ofNat p)).toNat64 := by
    intro s p hs hs₁ hs₂ hp₁ hp₂
    rw [← hs] at hstep
    exact not_lt.mpr (countOf_le hhi hstep (part_hasValue p hp₂) hn hn' hs₁ hs₂ hp₁ hp₂)
  have htwo : ¬n < (countOf (-oneHalf) (ofNat n - oneHalf) step 2).toNat64 :=
    hcount (10 ^ k * 5) 2 (by omega) (by omega) (by omega) (by decide) (by decide)
  have hfive : ¬n < (countOf (-oneHalf) (ofNat n - oneHalf) step 5).toNat64 :=
    hcount (10 ^ k * 2) 5 (by omega) (by omega) (by omega) (by decide) (by decide)
  have htenth : ¬n < (countOf (-oneHalf) (ofNat n - oneHalf) step 10).toNat64 :=
    hcount (10 ^ k) 10 (by omega) hpositive (by omega) (by decide) (by decide)
  refine ⟨step / 10, ?_⟩
  rw [shortenBy, if_neg htwo, shortenBy, if_neg hfive, shortenBy, if_neg htenth, shortenBy]

theorem shortenBy_one (hstep : step.HasValue (10 ^ 0 : Nat)) (hn : 1 ≤ n) (hn' : n < 2 ^ 63) :
    shortenBy (-oneHalf) (ofNat n - oneHalf) n step [2, 5, 10] step = (step, false) := by
  have hcount := lt_countOf_half (by simpa using hstep) hn hn'
  rw [shortenBy, if_pos hcount]

end Decade

/-! ## All decades -/

/-- From a power of ten the search ends, and with enough decades the bounded search ends where it
does. If there are not very many bars that is a step of one. -/
theorem search_of_atDecade {n k : Nat} {step grain : Binary64} (h : AtDecade k step grain)
    (hk : k ≤ 22) (hn : 1 ≤ n) (hn' : n < 2 ^ 63) :
    ∃ result, Search (-oneHalf) (ofNat n - oneHalf) n step grain result ∧
      (∀ decades, k < decades →
        shortenStep (-oneHalf) (ofNat n - oneHalf) n decades step grain = result) ∧
      (n ≤ 2 ^ 40 → k ≤ 12 → result.1.HasValue 1 ∧ result.2 = tenth) := by
  -- where a power of ten is left, the search goes on from the one below it
  induction k generalizing step grain with
  | zero =>
      have hstop := shortenBy_one h.step hn hn'
      refine ⟨(step, grain), .stop hstop, ?_, ?_⟩
      · intro decades hdecades
        obtain ⟨more, rfl⟩ := Nat.exists_eq_add_of_lt hdecades
        rw [shortenStep, hstop]
      · intro _ _
        exact ⟨by simpa using h.step, h.first rfl⟩
  | succ k ih =>
      obtain ⟨result, hsearch, hfuel, hexact⟩ := ih (h.down (by omega)) (by omega)
      cases hshorten : shortenBy (-oneHalf) (ofNat n - oneHalf) n step [2, 5, 10] step with
      | mk shorter goesOn =>
          cases goesOn with
          | true =>
              refine ⟨result, .next hshorten hsearch, ?_, fun hsmall hk' =>
                hexact hsmall (by omega)⟩
              intro decades hdecades
              obtain ⟨more, rfl⟩ := Nat.exists_eq_add_of_lt hdecades
              rw [shortenStep, hshorten]
              exact hfuel _ (by omega)
          | false =>
              refine ⟨(shorter, grain), .stop hshorten, ?_, ?_⟩
              · intro decades hdecades
                obtain ⟨more, rfl⟩ := Nat.exists_eq_add_of_lt hdecades
                rw [shortenStep, hshorten]
              · intro hsmall hk'
                obtain ⟨shorter', hlater⟩ := shortenBy_later h.step hn hsmall (by omega)
                rw [hlater] at hshorten
                simp at hshorten

theorem exists_tenth : ∃ t, tenth.HasValue t ∧ 1 / 16 ≤ t ∧ t ≤ 1 / 8 := by
  obtain ⟨t, ht, hlow, hhigh⟩ := ofRat_mkRat_between false (n := 1) (d := 10)
    (representable_div_two_pow (c := 1) (k := 4) (by decide) (by decide))
    (representable_div_two_pow (c := 1) (k := 3) (by decide) (by decide))
    (by norm_num) (by norm_num)
  norm_num at hlow hhigh
  exact ⟨t, ht, by linarith, by linarith⟩

theorem lt_floor_tenth {n : Nat} (hn : 1 ≤ n) (hn' : n < 2 ^ 63) :
    n < 1 + ((ofNat n - oneHalf - -oneHalf) / powerOfTen (-1)).floor.toNat64 := by
  have hnr : (1 : Rat) ≤ n := by exact_mod_cast hn
  have hpower : powerOfTen (-1) = tenth := by decide +kernel
  obtain ⟨c, hc, hlow, hhigh⟩ := exists_length hn hn'
  obtain ⟨t, ht, htlow, hthigh⟩ := exists_tenth
  have ht0 : (0 : Rat) < t := by linarith
  have hq : 8 * c ≤ c / t := by
    rw [le_div_iff₀ ht0]
    nlinarith
  have hq' : c / t ≤ 16 * c := by
    rw [div_le_iff₀ ht0]
    nlinarith
  obtain ⟨r, hr, hpos, hrlow, _⟩ := hc.div_close ht ht0.ne' (by linarith) (by linarith)
  rw [hpower]
  have hfloor := hr.floor
  have hmore : (n : Int) ≤ r.floor := by
    rw [Rat.le_floor_iff]
    push_cast
    linarith
  have hcount := hfloor.toNat64_eq (by exact_mod_cast (by omega : 0 ≤ r.floor))
  rw [Rat.floor_intCast] at hcount
  rw [hcount]
  simp only [UInt64.size]
  omega

/-- The search never starts from less than one, so it starts from a power of ten. -/
theorem searchStart_atDecade {n : Nat} {decade : Int} (hn : 1 ≤ n) (hn' : n < 2 ^ 63)
    (hlow : -1 ≤ decade) (hhigh : decade ≤ 20) :
    ∃ k : Nat, (k : Int) ≤ max 0 (decade + 1) ∧
      AtDecade k (searchStart (-oneHalf) (ofNat n - oneHalf) n decade).1
        (searchStart (-oneHalf) (ofNat n - oneHalf) n decade).2 := by
  unfold searchStart
  dsimp only
  rcases (by omega : decade = -1 ∨ 0 ≤ decade) with rfl | hdecade
  · -- steps of a tenth make too many points at once
    rw [if_pos (lt_floor_tenth hn hn')]
    have hone : powerOfTen (-1) * 10 = ofNat 1 := by decide +kernel
    refine ⟨0, by decide, ?_, fun _ => by decide +kernel, fun j hj => by omega⟩
    rw [hone]
    exact ofNat_hasValue (n := 1) (by decide)
  · obtain ⟨k, rfl⟩ := Int.eq_ofNat_of_zero_le hdecade
    have hpower := AtDecade.of_power (k := k) (by omega)
    split
    · exact ⟨k + 1, by omega, hpower.up (by omega)⟩
    · exact ⟨k, by omega, hpower⟩

/-! ## Steps of one -/

theorem ofNat_isNegative {n : Nat} (h : n < significands) : (ofNat n).isNegative = false := by
  rcases Nat.eq_zero_or_pos n with rfl | hn
  · rfl
  · exact (ofNat_hasValue h).isNegative_of_pos (by exact_mod_cast hn)

theorem ofNat_add {a b : Nat} {y : Binary64} (hy : y.HasValue b) (ha : a < significands) :
    ofNat a + y = ofNat (a + b) := by
  rw [(ofNat_hasValue ha).add_eq hy, ofNat_isNegative ha, Bool.false_and, ofNat_eq_ofRat]
  push_cast
  rfl

theorem not_lt_zero_of_grain {k : Nat} (hk : k ≤ 2 ^ 40) :
    ((ofNat k / tenth).round * tenth).lt 0 = false := by
  have hkr : (k : Rat) ≤ 2 ^ 40 := by exact_mod_cast hk
  have hvalue : (ofNat k).HasValue k := ofNat_hasValue (by simp only [significands]; omega)
  have hbound : Representable ((2 : Rat) ^ 50) := representable_two_pow (by decide)
  obtain ⟨t, ht, htlow, hthigh⟩ := exists_tenth
  have ht0 : (0 : Rat) < t := by linarith
  obtain ⟨r, hr, hrlow, hrhigh⟩ := hvalue.div_between ht ht0.ne' representable_zero hbound
    (by positivity) (by rw [div_le_iff₀ ht0]; nlinarith)
  have hnear := roundAway_near r
  rw [abs_le] at hnear
  have hwhole : 0 ≤ roundAway r := by
    have h : (-1 : Rat) < roundAway r := by linarith
    have h' : -1 < roundAway r := by exact_mod_cast h
    omega
  have hwholer : (0 : Rat) ≤ roundAway r := by exact_mod_cast hwhole
  obtain ⟨u, hu, hulow, _⟩ := hr.round.mul_between ht representable_zero hbound (by positivity)
    (by nlinarith)
  rw [hu.lt_eq zero_hasValue]
  exact decide_eq_false (not_lt.mpr hulow)

/-! ## The loop over the points -/

/-- The loop over the points, without a bound on how many there are. It ends at the first that is
beyond the last. -/
inductive Walks (base last step grain : Binary64) : Binary64 → List Binary64 → Prop where
  | stop {relative : Binary64} :
      Binary64.le (-epsilon) (last - relative - base) = false →
      Walks base last step grain relative []
  | next {relative : Binary64} {points : List Binary64} :
      Binary64.le (-epsilon) (last - relative - base) = true →
      Walks base last step grain (settled grain relative + step) points →
      Walks base last step grain relative ((settled grain relative + base) :: points)

namespace Walks

variable {base last step grain relative : Binary64} {points : List Binary64}

theorem unique {others : List Binary64} (h : Walks base last step grain relative points)
    (h' : Walks base last step grain relative others) : points = others := by
  induction h generalizing others with
  | stop hbeyond =>
      cases h' with
      | stop _ => rfl
      | next hnear _ =>
          rw [hbeyond] at hnear
          cases hnear
  | next hnear _ ih =>
      cases h' with
      | stop hbeyond =>
          rw [hnear] at hbeyond
          cases hbeyond
      | next _ hrest => rw [ih hrest]

/-- A counter that leaves room for all points is not what ends the loop. -/
theorem walk_eq (h : Walks base last step grain relative points) {count : Nat}
    (hcount : points.length ≤ count) : walk base last step grain count relative = points := by
  induction h generalizing count with
  | @stop relative hbeyond =>
      cases count with
      | zero => rfl
      | succ count => rw [walk, hbeyond, if_neg Bool.false_ne_true]
  | @next relative points hnear _ ih =>
      cases count with
      | zero => exact absurd hcount (Nat.not_succ_le_zero _)
      | succ count =>
          rw [walk, if_pos hnear]
          dsimp only
          rw [ih (Nat.le_of_succ_le_succ hcount)]

end Walks

/-- The exit test on the axis of `n` bars after `k` steps of one: it fails at the bar after the
last. -/
theorem le_rest_iff {last : Binary64} {n k : Nat} (hlast : last.HasValue (n - 1 : Nat)) (hn : 1 ≤ n)
    (hn' : n ≤ 2 ^ 40) (hk : k ≤ n) :
    Binary64.le (-epsilon) (last - ofNat k - ofNat 0) = true ↔ k < n := by
  have hvalue := ofNat_hasValue (n := k) (by simp only [significands]; omega)
  have hzero := ofNat_hasValue (n := 0) (by decide)
  have hleft : ((n - 1 : Nat) : Rat) - k = ((n - 1 - k : Int) : Rat) := by
    rw [Nat.cast_sub hn]
    push_cast
    rfl
  have hrepresentable : Representable ((n - 1 - k : Int) : Rat) :=
    representable_intCast (by simp only [significands]; omega)
  have hsub := hlast.sub hvalue (by rw [hleft]; exact hrepresentable)
  have hrest := hsub.sub hzero (by rw [Nat.cast_zero, sub_zero, hleft]; exact hrepresentable)
  rw [Nat.cast_zero, sub_zero, hleft] at hrest
  rw [epsilon_hasValue.neg.le_eq hrest, decide_eq_true_iff]
  constructor
  · intro hle
    have hmore : (-1 : Rat) < ((n - 1 - k : Int) : Rat) := by
      refine lt_of_lt_of_le ?_ hle
      norm_num
    have hmore' : -1 < (n - 1 - k : Int) := by exact_mod_cast hmore
    omega
  · intro hlt
    have hnonneg : (0 : Rat) ≤ ((n - 1 - k : Int) : Rat) := by
      exact_mod_cast (by omega : 0 ≤ (n - 1 - k : Int))
    refine le_trans ?_ hnonneg
    norm_num

theorem walks_ones {last step : Binary64} {n : Nat} (hlast : last.HasValue (n - 1 : Nat))
    (hstep : step.HasValue 1) (hn : 1 ≤ n) (hn' : n ≤ 2 ^ 40) (count k : Nat) (h : k + count = n) :
    Walks (ofNat 0) last step tenth (ofNat k) ((List.range' k count).map ofNat) := by
  -- `count` bars are left, and `k` is the place of the next one
  induction count generalizing k with
  | zero =>
      refine .stop (Bool.eq_false_iff.mpr fun hnear => ?_)
      exact absurd ((le_rest_iff hlast hn hn' (by omega)).mp hnear) (by omega)
  | succ count ih =>
      have hsettled : settled tenth (ofNat k) = ofNat k := by
        rw [settled, not_lt_zero_of_grain (by omega), if_neg Bool.false_ne_true]
      have hhere : settled tenth (ofNat k) + ofNat 0 = ofNat k := by
        rw [hsettled, ofNat_add (ofNat_hasValue (by decide)) (by simp only [significands]; omega),
          Nat.add_zero]
      have hnext : settled tenth (ofNat k) + step = ofNat (k + 1) := by
        rw [hsettled, ofNat_add (b := 1) (by exact_mod_cast hstep)
          (by simp only [significands]; omega)]
      have hrest := ih (k + 1) (by omega)
      rw [← hnext] at hrest
      have hwalks := hrest.next ((le_rest_iff hlast hn hn' (by omega)).mpr (by omega))
      rwa [hhere] at hwalks

/-- The points of a range as its two loops find them, whatever time they take. -/
def Finds (lo hi : Binary64) (limit : Nat) (decade : Int) (points : List Binary64) : Prop :=
  ∃ step grain, Search lo hi limit (searchStart lo hi limit decade).1
      (searchStart lo hi limit decade).2 (step, grain) ∧
    Walks (baseOf lo step grain) (lastMultiple hi step) step grain
      (firstMultiple lo step - baseOf lo step grain) points

theorem Finds.unique {lo hi : Binary64} {limit : Nat} {decade : Int} {points others : List Binary64}
    (h : Finds lo hi limit decade points) (h' : Finds lo hi limit decade others) :
    points = others := by
  obtain ⟨step, grain, hsearch, hwalks⟩ := h
  obtain ⟨step', grain', hsearch', hwalks'⟩ := h'
  cases hsearch.unique hsearch'
  exact hwalks.unique hwalks'

/-- On the axis of `n` bars the key points are the places of the bars, whatever power of ten from
one tenth to a hundred thousand million the search starts from. Both loops end there by their own
tests. -/
theorem points_of_axis {n : Nat} {decade : Int} (hn : 1 ≤ n) (hn' : n ≤ 2 ^ 40)
    (hlow : -1 ≤ decade) (hhigh : decade ≤ 11) :
    Finds (-oneHalf) (ofNat n - oneHalf) n decade ((List.range n).map ofNat) ∧
      ∀ count, n ≤ count →
        pointsIn (-oneHalf) (ofNat n - oneHalf)
            (fractionalStep (-oneHalf) (ofNat n - oneHalf) n decade).1
            (fractionalStep (-oneHalf) (ofNat n - oneHalf) n decade).2 count =
          (List.range n).map ofNat := by
  have hmany : n < 2 ^ 63 := by omega
  obtain ⟨k, hk, hstart⟩ := searchStart_atDecade hn hmany hlow (by omega)
  obtain ⟨result, hsearch, hfuel, hexact⟩ := search_of_atDecade hstart (by omega) hn hmany
  obtain ⟨hstep, hgrain⟩ := hexact hn' (by omega)
  have hresult := hfuel 22 (by omega)
  rw [← fractionalStep_eq] at hresult
  obtain ⟨step, grain⟩ := result
  dsimp only at hstep hgrain
  subst hgrain
  have hwhole : step.HasValue (1 : Nat) := by exact_mod_cast hstep
  have hlast := lastMultiple_hasValue (high_hasValue hn hn') hwhole hn hn' (le_refl 1) (by decide)
  rw [Nat.div_one, Nat.mul_one] at hlast
  have hfirst := firstMultiple_eq hwhole (le_refl 1) (by decide)
  have hbase : baseOf (-oneHalf) step tenth = ofNat 0 := by
    rw [baseOf, hfirst]
    decide +kernel
  have hrelative : firstMultiple (-oneHalf) step - baseOf (-oneHalf) step tenth = ofNat 0 := by
    rw [hfirst, hbase]
    decide +kernel
  have hwalks : Walks (baseOf (-oneHalf) step tenth) (lastMultiple (ofNat n - oneHalf) step) step
      tenth (firstMultiple (-oneHalf) step - baseOf (-oneHalf) step tenth)
      ((List.range n).map ofNat) := by
    rw [hrelative, hbase, List.range_eq_range']
    exact walks_ones hlast hstep hn hn' n 0 (Nat.zero_add n)
  refine ⟨⟨step, tenth, hsearch, hwalks⟩, fun count hcount => ?_⟩
  rw [hresult]
  exact hwalks.walk_eq (by simpa using hcount)

theorem fractionalIn_eq {n : Nat} {decade : Int} (hn : 1 ≤ n) (hn' : n ≤ 2 ^ 40)
    (hlow : -1 ≤ decade) (hhigh : decade ≤ 11) :
    fractionalIn (-oneHalf) (ofNat n - oneHalf) n decade = (List.range n).map ofNat := by
  rw [fractionalIn, if_neg (by omega)]
  exact (points_of_axis hn hn' hlow hhigh).2 n (le_refl n)

end RehashChart.KeyPoints
