import RehashChart.Proofs.Text.Integers
import RehashChart.Proofs.Toml.Written

/-! # Integers in a document

An integer that does not fit 64 bits is no number with a point or an exponent and no date, so
nothing makes up another value for it.
-/

namespace RehashChart.Toml

open Text (IsDigits isDigits_toDigits mem_toString ne_of_isDigit notMem_toString ofBase
  toList_toString toList_toString_ne_nil)

/-! ## Digits -/

theorem digitGroups_of_isDigits {digits : List Char} (h : IsDigits digits) :
    digitGroups Char.isDigit digits = some digits := by
  obtain ⟨hne, hdigits⟩ := h
  induction digits with
  | nil => exact absurd rfl hne
  | cons c cs ih =>
      have hc := hdigits c List.mem_cons_self
      cases cs with
      | nil => rw [digitGroups, if_pos hc]
      | cons d ds =>
          have hd := hdigits d (List.mem_cons_of_mem c List.mem_cons_self)
          have hgap : d ≠ '_' := ne_of_isDigit hd (by decide)
          have htail := ih (List.cons_ne_nil d ds) fun e he => hdigits e (List.mem_cons_of_mem c he)
          rw [digitGroups, if_pos hc, htail]
          · rfl
          · simp
          · simpa using hgap

/-- The digits of a number do not start with a needless zero. -/
theorem wholeDigits_toDigits (n : Nat) :
    wholeDigits (Nat.toDigits 10 n) = some (Nat.toDigits 10 n) := by
  rw [wholeDigits, digitGroups_of_isDigits (isDigits_toDigits n)]
  split
  · rename_i c cs heq
    have hunpadded := (Text.isDecimal_iff.mpr (rfl : Nat.toDigits 10 n = _)).unpadded
    rw [Option.some.inj heq] at hunpadded
    cases hunpadded rfl
  · rfl

theorem ofBase_toDigits (n : Nat) : ofBase 10 (Nat.toDigits 10 n) = n := by
  have hfold : ∀ (digits : List Char) (value : Nat), (∀ c ∈ digits, c.isDigit = true) →
      digits.foldl (fun n c => 10 * n + Text.hexValue c) value =
        Nat.ofDigitChars 10 digits value := by
    intro digits
    induction digits with
    | nil => exact fun _ _ => rfl
    | cons c cs ih =>
        intro value hdigits
        have hc : Text.hexValue c = c.toNat - '0'.toNat := if_pos (hdigits c List.mem_cons_self)
        rw [List.foldl_cons, hc, Nat.ofDigitChars_cons]
        exact ih _ fun d hd => hdigits d (List.mem_cons_of_mem c hd)
  rw [ofBase, hfold _ _ (isDigits_toDigits n).2]
  exact Nat.ofDigitChars_toDigits (by decide) (by decide)

/-! ## Words -/

variable {d : Int}

/-- An integer of 64 bits is one that fits them. -/
theorem boundedInteger_eq (d : Int) :
    boundedInteger d = if -(2 ^ 63) ≤ d ∧ d < 2 ^ 63 then some d else none := by
  have hbounds : (-(Text.maxInt64 + 1 : Int) ≤ d ∧ d ≤ Text.maxInt64) ↔
      -(2 ^ 63) ≤ d ∧ d < 2 ^ 63 := by
    simp only [Text.maxInt64]
    omega
  exact if_congr hbounds rfl rfl

theorem readInteger_toString (d : Int) : readInteger (toString d).toList = boundedInteger d := by
  have hx := notMem_toString d (c := 'x') (by decide) (by decide)
  have ho := notMem_toString d (c := 'o') (by decide) (by decide)
  have hb := notMem_toString d (c := 'b') (by decide) (by decide)
  unfold readInteger
  split
  · rename_i heq
    rw [heq] at hx
    exact absurd (by simp) hx
  · rename_i heq
    rw [heq] at ho
    exact absurd (by simp) ho
  · rename_i heq
    rw [heq] at hb
    exact absurd (by simp) hb
  · dsimp only
    rw [Binary64.spanSign_toString, wholeDigits_toDigits, Option.bind_some, ofBase_toDigits,
      Text.signed_natAbs]

theorem readFloat_toString (d : Int) : readFloat (toString d).toList = none := by
  obtain ⟨hne, hdigits⟩ := isDigits_toDigits d.natAbs
  have hword (name : List Char) {c : Char} {cs : List Char} (hname : name = c :: cs)
      (hc : c.isDigit = false) : Nat.toDigits 10 d.natAbs ≠ name := by
    intro heq
    rw [heq, hname] at hdigits
    exact Bool.false_ne_true (hc.symm.trans (hdigits c List.mem_cons_self))
  have hgaps : ∀ c ∈ Nat.toDigits 10 d.natAbs, isDigitOrGap c = true := by
    intro c hc
    rw [isDigitOrGap, hdigits c hc, Bool.true_or]
  have hdecimal (negative : Bool) : readDecimal negative (Nat.toDigits 10 d.natAbs) = none := by
    rw [readDecimal, List.takeWhile_eq_self_iff.mpr hgaps, List.dropWhile_eq_nil_iff.mpr hgaps,
      wholeDigits_toDigits]
    rfl
  unfold readFloat
  rw [Binary64.spanSign_toString]
  dsimp only
  rw [if_neg (hword ['i', 'n', 'f'] rfl (by decide)), if_neg (hword ['n', 'a', 'n'] rfl (by decide)),
    hdecimal]
  rfl

/-- A date has a minus sign after the year. -/
theorem readDate_toString (d : Int) : readDate (toString d).toList = none := by
  have htail : ∀ {c : Char} {cs : List Char}, (toString d).toList = c :: cs → '-' ∉ cs := by
    intro c cs hlist hminus
    obtain ⟨n, _, hdigits⟩ | ⟨n, _, _, hdigits⟩ := toList_toString d
    · rw [hlist] at hdigits
      have hdigit := (isDigits_toDigits n).2 '-' (hdigits ▸ List.mem_cons_of_mem c hminus)
      exact absurd hdigit (by decide)
    · rw [hlist, List.cons.injEq] at hdigits
      have hdigit := (isDigits_toDigits n).2 '-' (hdigits.2 ▸ hminus)
      exact absurd hdigit (by decide)
  unfold readDate
  split
  · rename_i heq
    exact absurd (by simp) (htail heq)
  · rfl

theorem readTime_toString (d : Int) : readTime (toString d).toList = none := by
  have hcolon := notMem_toString d (c := ':') (by decide) (by decide)
  unfold readTime
  split
  · rename_i heq
    rw [heq] at hcolon
    exact absurd (by simp) hcolon
  · rfl

theorem readWord_toString (d : Int) :
    readWord (toString d).toList = (boundedInteger d).map .integer := by
  have hboolean : readBoolean (toString d).toList = none := by
    have htrue : (toString d).toList ≠ ['t', 'r', 'u', 'e'] := by
      intro heq
      exact notMem_toString d (c := 't') (by decide) (by decide) (by rw [heq]; simp)
    have hfalse : (toString d).toList ≠ ['f', 'a', 'l', 's', 'e'] := by
      intro heq
      exact notMem_toString d (c := 'f') (by decide) (by decide) (by rw [heq]; simp)
    rw [readBoolean, if_neg htrue, if_neg hfalse]
  rw [readWord, hboolean, readInteger_toString, readFloat_toString, readMoment, readDate_toString,
    readTime_toString]
  cases boundedInteger d <;> rfl

/-! ## Values -/

theorem exists_cons_toString (d : Int) :
    ∃ c cs, (toString d).toList = c :: cs ∧ isSpace c = false := by
  obtain ⟨c, cs, hcons⟩ := List.exists_cons_of_ne_nil (toList_toString_ne_nil d)
  have hc : c ∈ (toString d).toList := hcons ▸ List.mem_cons_self
  have hspace : c ≠ ' ' := by
    rintro rfl
    exact notMem_toString d (by decide) (by decide) hc
  have htab : c ≠ '\t' := by
    rintro rfl
    exact notMem_toString d (by decide) (by decide) hc
  exact ⟨c, cs, hcons, by simp [isSpace, hspace, htab]⟩

theorem isWordChar_lineEnd (tail : List Char) :
    ∀ c ∈ ('\n' :: tail).head?, isWordChar c = false := by
  intro c hc
  cases hc
  decide

theorem readValue_toString (depth : Nat) (d : Int) {rest : List Char}
    (hrest : ∀ c ∈ rest.head?, isWordChar c = false) :
    readValue depth ((toString d).toList ++ rest) =
      (boundedInteger d).map fun n => (.integer n, rest) := by
  have hword : ∀ c ∈ (toString d).toList, isWordChar c = true := by
    intro c hc
    rcases mem_toString hc with h | rfl
    · simp [isWordChar, Char.isAlphanum, h]
    · decide
  have htake : rest.takeWhile isWordChar = [] ∧ rest.dropWhile isWordChar = rest := by
    cases rest with
    | nil => exact ⟨rfl, rfl⟩
    | cons c rest =>
        have hc := hrest c rfl
        exact ⟨List.takeWhile_cons_of_neg (by simp [hc]), List.dropWhile_cons_of_neg (by simp [hc])⟩
  have hspan : spanWord ((toString d).toList ++ rest) = ((toString d).toList, rest) := by
    rw [spanWord, List.takeWhile_append_of_pos hword, List.dropWhile_append_of_pos hword, htake.1,
      htake.2, List.append_nil, readDate_toString]
  have hscalar : readScalar ((toString d).toList ++ rest) =
      (boundedInteger d).map fun n => (.integer n, rest) := by
    rw [readScalar, hspan]
    dsimp only
    rw [readWord_toString]
    cases boundedInteger d <;> rfl
  obtain ⟨c, cs, hcons⟩ := List.exists_cons_of_ne_nil (toList_toString_ne_nil d)
  have hc : c ∈ (toString d).toList := hcons ▸ List.mem_cons_self
  have hflat : readValue.readFlat ((toString d).toList ++ rest) =
      readScalar ((toString d).toList ++ rest) := by
    have hquote : c ≠ '"' := by
      rintro rfl
      exact notMem_toString d (by decide) (by decide) hc
    have hsingle : c ≠ '\'' := by
      rintro rfl
      exact notMem_toString d (by decide) (by decide) hc
    rw [hcons, List.cons_append, readValue.readFlat]
    · simpa using hquote
    · simpa using hsingle
  rw [← hscalar, ← hflat]
  cases depth with
  | zero => rw [readValue]
  | succ depth =>
      have hbracket : c ≠ '[' := by
        rintro rfl
        exact notMem_toString d (by decide) (by decide) hc
      have hbrace : c ≠ '\x7b' := by
        rintro rfl
        exact notMem_toString d (by decide) (by decide) hc
      rw [hcons, List.cons_append, readValue]
      · simpa using hbracket
      · simpa using hbrace

end RehashChart.Toml
