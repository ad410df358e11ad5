import RehashChart.Binary64.Decimal
import RehashChart.Proofs.Settings.Canvas
import RehashChart.Proofs.Text.Numerals
import RehashChart.Text.Lowercase

/-! # The text of an integer

The text of an integer is read back as far as it fits; as a floating point number it is rounded, or
an infinity.
-/

namespace RehashChart

namespace Text

/-! ## Writing -/

theorem toList_toString (d : Int) :
    (∃ n : Nat, d = n ∧ (toString d).toList = Nat.toDigits 10 n) ∨
      ∃ n : Nat, 0 < n ∧ d = -(n : Int) ∧ (toString d).toList = '-' :: Nat.toDigits 10 n := by
  cases d with
  | ofNat n => exact .inl ⟨n, rfl, by simp [toString, Int.repr, Nat.repr]⟩
  | negSucc n =>
      exact .inr ⟨n + 1, Nat.succ_pos n, rfl, by simp [toString, Int.repr, Nat.repr]⟩

theorem exists_cons_toDigits (n : Nat) :
    ∃ c cs, Nat.toDigits 10 n = c :: cs ∧ c.isDigit = true := by
  obtain ⟨hne, hdigits⟩ := isDigits_toDigits n
  cases htext : Nat.toDigits 10 n with
  | nil => exact absurd htext hne
  | cons c cs => exact ⟨c, cs, rfl, hdigits c (htext ▸ List.mem_cons_self)⟩

theorem ne_of_isDigit {c d : Char} (hc : c.isDigit = true) (hd : d.isDigit = false) : c ≠ d := by
  rintro rfl
  exact Bool.false_ne_true (hd.symm.trans hc)

/-- All characters of an integer are digits, a minus sign at the start apart. -/
theorem mem_toString {d : Int} {c : Char} (h : c ∈ (toString d).toList) :
    c.isDigit = true ∨ c = '-' := by
  obtain ⟨n, _, hlist⟩ | ⟨n, _, _, hlist⟩ := toList_toString d
  · rw [hlist] at h
    exact .inl ((isDigits_toDigits n).2 c h)
  · rw [hlist, List.mem_cons] at h
    exact h.symm.imp_left ((isDigits_toDigits n).2 c)

theorem notMem_toString {c : Char} (d : Int) (hdigit : c.isDigit = false) (hsign : c ≠ '-') :
    c ∉ (toString d).toList := by
  intro hc
  rcases mem_toString hc with h | h
  · exact Bool.false_ne_true (hdigit.symm.trans h)
  · exact hsign h

theorem toString_ne_of_mem {word : String} (d : Int) {c : Char} (hc : c ∈ word.toList)
    (hdigit : c.isDigit = false) (hsign : c ≠ '-') : toString d ≠ word := by
  rintro rfl
  exact notMem_toString d hdigit hsign hc

theorem toList_toString_ne_nil (d : Int) : (toString d).toList ≠ [] := by
  obtain ⟨n, _, hlist⟩ | ⟨n, _, _, hlist⟩ := toList_toString d
  · rw [hlist]
    exact (isDigits_toDigits n).1
  · rw [hlist]
    exact List.cons_ne_nil _ _

theorem signed_natAbs (d : Int) :
    (if decide (d < 0) = true then -(d.natAbs : Int) else d.natAbs) = d := by
  by_cases hneg : d < 0
  · rw [decide_eq_true hneg, if_pos rfl]
    omega
  · rw [decide_eq_false hneg, if_neg Bool.false_ne_true]
    omega

/-! ## Lower case -/

/-- Characters before the letters have no other lower case. -/
theorem toLower_of_lt {c : Char} (h : c.toNat < 65) : c.toLower = c := by
  unfold Char.toLower
  rw [dif_neg]
  intro hupper
  have hle : 65 ≤ c.toNat := UInt32.le_iff_toNat_le.mp hupper.1
  omega

theorem lowercaseFrom_of_lt {text : List Char} (h : ∀ c ∈ text, c.toNat < 65) (before : List Char) :
    lowercaseFrom before text = text := by
  induction text generalizing before with
  | nil => rfl
  | cons c text ih =>
      have hc := h c List.mem_cons_self
      have hsigma : c ≠ '\u03A3' := by
        rintro rfl
        exact absurd hc (by decide)
      have hchar : lowercaseChar c = [c] := by
        rw [lowercaseChar, if_pos (by omega), toLower_of_lt hc]
      rw [lowercaseFrom, if_neg hsigma, hchar,
        ih (fun d hd => h d (List.mem_cons_of_mem c hd)), List.singleton_append]

theorem lowercase_toString (d : Int) : lowercase (toString d) = toString d := by
  unfold lowercase
  rw [lowercaseFrom_of_lt, String.ofList_toList]
  intro c hc
  rcases mem_toString hc with h | rfl
  · have hrange := toNat_of_isDigit h
    omega
  · decide

/-! ## Reading as an integer -/

theorem readBounded_toDigits (bound n : Nat) :
    readBounded bound (Nat.toDigits 10 n) = if n ≤ bound then some n else none := by
  have hvalue : Nat.ofDigitChars 10 (Nat.toDigits 10 n) 0 = n :=
    Nat.ofDigitChars_toDigits (by decide) (by decide)
  split
  · rename_i hbound
    exact readBounded_eq_some_iff.mpr ⟨isDigits_toDigits n, hvalue, hbound⟩
  · rename_i hbound
    rw [Option.eq_none_iff_forall_ne_some]
    intro m hread
    obtain ⟨_, rfl, hle⟩ := readBounded_eq_some_iff.mp hread
    rw [hvalue] at hle
    exact hbound hle

theorem readUnsigned_toDigits (bound n : Nat) :
    readUnsigned bound (Nat.toDigits 10 n) = if n ≤ bound then some n else none := by
  obtain ⟨c, cs, hlist, hc⟩ := exists_cons_toDigits n
  have hplus : c ≠ '+' := ne_of_isDigit hc (by decide)
  have hread : readUnsigned bound (Nat.toDigits 10 n) = readBounded bound (Nat.toDigits 10 n) := by
    rw [hlist, readUnsigned]
    simpa using hplus
  rw [hread, readBounded_toDigits]

theorem readInt64_toString (d : Int) :
    readInt64 (toString d).toList =
      if -(maxInt64 + 1 : Int) ≤ d ∧ d ≤ maxInt64 then some d else none := by
  obtain ⟨n, rfl, hlist⟩ | ⟨n, hn, rfl, hlist⟩ := toList_toString d
  · obtain ⟨c, cs, hcons, hc⟩ := exists_cons_toDigits n
    have hminus : c ≠ '-' := ne_of_isDigit hc (by decide)
    have hread : readInt64 (Nat.toDigits 10 n) =
        (readUnsigned maxInt64 (Nat.toDigits 10 n)).map fun n : Nat => (n : Int) := by
      rw [hcons, readInt64]
      simpa using hminus
    have hbounds : (-(maxInt64 + 1 : Int) ≤ n ∧ (n : Int) ≤ maxInt64) ↔ n ≤ maxInt64 := by omega
    rw [hlist, hread, readUnsigned_toDigits, if_congr hbounds rfl rfl]
    split <;> rfl
  · have hbounds : (-(maxInt64 + 1 : Int) ≤ -(n : Int) ∧ -(n : Int) ≤ maxInt64) ↔
        n ≤ maxInt64 + 1 := by omega
    rw [hlist, readInt64, readBounded_toDigits, if_congr hbounds rfl rfl]
    split <;> rfl

theorem readNat64_toString_eq_some_iff {d : Int} {n : Nat} :
    readNat64 (toString d).toList = some n ↔ (n : Int) = d ∧ n < UInt64.size := by
  obtain ⟨m, rfl, hlist⟩ | ⟨m, hm, rfl, hlist⟩ := toList_toString d
  · rw [hlist, readNat64, readUnsigned_toDigits, if_congr le_maxNat64_iff rfl rfl]
    constructor
    · intro h
      split at h
      · rename_i hm
        cases h
        exact ⟨rfl, hm⟩
      · cases h
    · intro h
      obtain ⟨hn, hless⟩ := h
      cases Int.ofNat.inj hn
      exact if_pos hless
  · have hnot : ¬Numeral ('-' :: Nat.toDigits 10 m) n := by
      intro hnumeral
      cases hnumeral with
      | plain hdigits =>
          exact Bool.false_ne_true (hdigits.2 '-' List.mem_cons_self)
    rw [hlist, readNat64_eq_some_iff]
    constructor
    · exact fun h => absurd h.1 hnot
    · intro h
      have hn := h.1
      omega

end Text

/-! ## Reading as a number -/

namespace Binary64

open Text (exists_cons_toDigits isDigits_toDigits ne_of_isDigit toList_toString)

theorem spanSign_toDigits (n : Nat) :
    spanSign (Nat.toDigits 10 n) = (false, Nat.toDigits 10 n) := by
  obtain ⟨c, cs, hlist, hc⟩ := exists_cons_toDigits n
  have hminus : c ≠ '-' := ne_of_isDigit hc (by decide)
  have hplus : c ≠ '+' := ne_of_isDigit hc (by decide)
  rw [hlist, spanSign]
  · simpa using hminus
  · simpa using hplus

theorem spanSign_toString (d : Int) :
    spanSign (toString d).toList = (decide (d < 0), Nat.toDigits 10 d.natAbs) := by
  obtain ⟨n, rfl, hlist⟩ | ⟨n, hn, rfl, hlist⟩ := toList_toString d
  · rw [hlist, spanSign_toDigits, decide_eq_false (by omega), Int.natAbs_natCast]
  · rw [hlist, decide_eq_true (by omega), Int.natAbs_neg, Int.natAbs_natCast]
    rfl

/-- Digits are no name. -/
theorem ofList_toLower_ne {digits : List Char} (h : Text.IsDigits digits) {name : String}
    {c : Char} {cs : List Char} (hname : name.toList = c :: cs) (hc : c.isDigit = false) :
    String.ofList (digits.map Char.toLower) ≠ name := by
  rintro rfl
  cases digits with
  | nil => exact h.1 rfl
  | cons d ds =>
      have hd := h.2 d List.mem_cons_self
      have hrange := Text.toNat_of_isDigit hd
      have hlower : d.toLower = d := Text.toLower_of_lt (by omega)
      rw [String.toList_ofList, List.map_cons, hlower, List.cons.injEq] at hname
      rw [hname.1] at hd
      exact Bool.false_ne_true (hc.symm.trans hd)

theorem readMagnitude_toDigits (negative : Bool) (n : Nat) :
    readMagnitude negative (Nat.toDigits 10 n) = some ⟨negative, n, 0⟩ := by
  obtain ⟨hne, hdigits⟩ := isDigits_toDigits n
  have hspan : spanDigits (Nat.toDigits 10 n) = (Nat.toDigits 10 n, []) := by
    rw [spanDigits, List.takeWhile_eq_self_iff.mpr hdigits,
      List.dropWhile_eq_nil_iff.mpr hdigits]
  have hvalue : digitsToNat (Nat.toDigits 10 n) = n :=
    Nat.ofDigitChars_toDigits (by decide) (by decide)
  simp [readMagnitude, hspan, hne, readExponent, hvalue]

/-- As a number, an integer is the one nearest to it, or an infinity. -/
theorem read_toString {d : Int} (hd : d ≠ 0) :
    ∃ x, read (toString d).toList = some x ∧
      (x = infinity (decide (d < 0)) ∨ x = ofRat (decide (d < 0)) d) := by
  have hdigits := isDigits_toDigits d.natAbs
  have hread : read (toString d).toList =
      some (Decimal.toBinary64 ⟨decide (d < 0), d.natAbs, 0⟩) := by
    rw [read, spanSign_toString]
    dsimp only
    have hinf : String.ofList ((Nat.toDigits 10 d.natAbs).map Char.toLower) ≠ "inf" :=
      ofList_toLower_ne hdigits rfl (by decide)
    have hinfinity : String.ofList ((Nat.toDigits 10 d.natAbs).map Char.toLower) ≠ "infinity" :=
      ofList_toLower_ne hdigits rfl (by decide)
    have hnan : String.ofList ((Nat.toDigits 10 d.natAbs).map Char.toLower) ≠ "nan" :=
      ofList_toLower_ne hdigits rfl (by decide)
    simp [hinf, hinfinity, hnan, readMagnitude_toDigits]
  have hvalue : Decimal.toRat ⟨decide (d < 0), d.natAbs, 0⟩ = d := by
    rw [Decimal.toRat, scaled_eq, Text.signed_natAbs, zpow_zero, mul_one]
  refine ⟨_, hread, ?_⟩
  rw [Decimal.toBinary64]
  dsimp only
  rw [if_neg (by omega)]
  by_cases hlong : 310 < (Decimal.length d.natAbs : Int) + 0
  · exact .inl (if_pos hlong)
  · refine .inr ?_
    rw [if_neg hlong, if_neg (by omega), hvalue]

theorem HasValue.toNat64_round {x : Binary64} {q : Rat} (hx : x.HasValue q) :
    x.round.toNat64 = (max 0 (min ((UInt64.size : Int) - 1) (roundAway q))).toNat := by
  rw [toNat64, hx.round.clampTo_eq, truncated_intCast]

/-- The number of an integer beyond 64 bits is one beyond 32 bits, or zero if it is negative. -/
theorem toNat64_round_of_ofRat {x : Binary64} {d : Int}
    (hx : x = infinity (decide (d < 0)) ∨ x = ofRat (decide (d < 0)) d) :
    (2 ^ 63 ≤ d → 2 ^ 63 ≤ x.round.toNat64) ∧ (d < 0 → x.round.toNat64 = 0) := by
  have hinfinite : x = infinity (decide (d < 0)) →
      (2 ^ 63 ≤ d → 2 ^ 63 ≤ x.round.toNat64) ∧ (d < 0 → x.round.toNat64 = 0) := by
    rintro rfl
    constructor
    · intro hd
      rw [decide_eq_false (by omega)]
      decide
    · intro hd
      rw [decide_eq_true hd]
      rfl
  rcases hx with hx | hx
  · exact hinfinite hx
  · obtain ⟨r, hrounds, ⟨_, hvalue⟩ | ⟨_, hinf⟩⟩ := ofRat_spec (decide (d < 0)) d
    · rw [← hx] at hvalue
      rw [hvalue.toNat64_round]
      constructor
      · intro hd
        have hpower : RoundsTo (2 ^ 63) (2 ^ 63) := roundsTo_self (representable_two_pow (by decide))
        have hr : (2 : Rat) ^ 63 ≤ r := hpower.mono hrounds (by exact_mod_cast hd)
        have hround : ((2 : Int) ^ 63 - 1) < roundAway r :=
          (lt_roundAway_iff (by norm_num)).mpr (by push_cast; linarith)
        simp only [UInt64.size]
        omega
      · intro hd
        have hr : r ≤ 0 := hrounds.nonpos (by exact_mod_cast hd.le)
        have hround : roundAway r ≤ 0 := by
          rcases hr.lt_or_eq with hneg | hzero
          · exact roundAway_nonpos hneg
          · rw [hzero]
            exact (roundAway_intCast 0).le
        omega
    · refine hinfinite ?_
      rw [hx, hinf]
      congr 2
      simp

end Binary64

end RehashChart
