import Mathlib.Algebra.Ring.Int.Defs
import Mathlib.Data.List.TakeWhile
import RehashChart.Text.Blank
import RehashChart.Text.Digits

/-! # Numbers in text

Which texts are read as a whole number, and as which one, stated by the digits alone; and what is
left of a text once blank characters are gone from its ends.
-/

namespace RehashChart.Text

open Nat (ofDigitChars)

def IsDigits (text : List Char) : Prop := text ≠ [] ∧ ∀ c ∈ text, c.isDigit = true

/-- A text that stands for a number: its digits, with one plus sign before them or none. -/
inductive Numeral : List Char → Nat → Prop where
  | plain {digits : List Char} : IsDigits digits → Numeral digits (ofDigitChars 10 digits 0)
  | plus {digits : List Char} : IsDigits digits → Numeral ('+' :: digits) (ofDigitChars 10 digits 0)

/-- A text that stands for an integer: as a number does, or digits with a minus sign before them. -/
inductive SignedNumeral : List Char → Int → Prop where
  | natural {text : List Char} {n : Nat} : Numeral text n → SignedNumeral text n
  | minus {digits : List Char} :
      IsDigits digits → SignedNumeral ('-' :: digits) (-(ofDigitChars 10 digits 0 : Nat))

structure IsDecimal (text : List Char) (n : Nat) : Prop where
  digits : IsDigits text
  value : ofDigitChars 10 text 0 = n
  unpadded : text.head? = some '0' → text = ['0']

theorem toNat_of_isDigit {c : Char} (h : c.isDigit = true) : 48 ≤ c.toNat ∧ c.toNat ≤ 57 := by
  simpa [Char.isDigit, UInt32.le_iff_toNat_le] using h

/-! ## Reading -/

theorem le_ofDigitChars (digits : List Char) (value : Nat) :
    value ≤ ofDigitChars 10 digits value := by
  induction digits generalizing value with
  | nil => simp
  | cons c cs ih =>
      rw [Nat.ofDigitChars_cons]
      have h := ih (10 * value + (c.toNat - '0'.toNat))
      omega

/-- Reading digits gives up exactly if one of them is none, or if the number is too large in the
end: what has been read so far never exceeds the whole. -/
theorem readDigits_eq_some_iff {bound value : Nat} (h : value ≤ bound) {text : List Char} {n : Nat} :
    readDigits bound value text = some n ↔
      (∀ c ∈ text, c.isDigit = true) ∧ ofDigitChars 10 text value = n ∧ n ≤ bound := by
  induction text generalizing value with
  | nil =>
      simp only [readDigits, Option.some.injEq, List.not_mem_nil, false_implies, implies_true,
        Nat.ofDigitChars_nil, true_and]
      constructor
      · rintro rfl
        exact ⟨rfl, h⟩
      · exact And.left
  | cons c cs ih =>
      have hnext : ofDigitChars 10 (c :: cs) value =
          ofDigitChars 10 cs (10 * value + digitValue c) := Nat.ofDigitChars_cons
      rw [readDigits, hnext]
      dsimp only
      by_cases hdigit : c.isDigit = true
      · by_cases hbound : 10 * value + digitValue c ≤ bound
        · simp [hdigit, hbound, ih hbound]
        · have hgrows := le_ofDigitChars cs (10 * value + digitValue c)
          simp only [hdigit, hbound, if_true, if_false, reduceCtorEq, false_iff, not_and]
          rintro - rfl
          omega
      · simp [hdigit]

theorem readBounded_eq_some_iff {bound : Nat} {text : List Char} {n : Nat} :
    readBounded bound text = some n ↔
      IsDigits text ∧ ofDigitChars 10 text 0 = n ∧ n ≤ bound := by
  cases text with
  | nil => simp [readBounded, IsDigits]
  | cons c cs =>
      rw [readBounded, readDigits_eq_some_iff (Nat.zero_le bound), IsDigits]
      · simp
      · simp

theorem not_isDigits_plus (text : List Char) : ¬IsDigits ('+' :: text) := by
  intro h
  have hplus := h.2 '+' List.mem_cons_self
  simp [Char.isDigit] at hplus

theorem readUnsigned_eq_some_iff {bound : Nat} {text : List Char} {n : Nat} :
    readUnsigned bound text = some n ↔ Numeral text n ∧ n ≤ bound := by
  unfold readUnsigned
  split
  · rename_i digits
    rw [readBounded_eq_some_iff]
    constructor
    · rintro ⟨hdigits, rfl, hbound⟩
      exact ⟨.plus hdigits, hbound⟩
    · rintro ⟨hnumeral, hbound⟩
      cases hnumeral with
      | plain hdigits => exact absurd hdigits (not_isDigits_plus digits)
      | plus hdigits => exact ⟨hdigits, rfl, hbound⟩
  · rename_i hunsigned
    rw [readBounded_eq_some_iff]
    constructor
    · rintro ⟨hdigits, rfl, hbound⟩
      exact ⟨.plain hdigits, hbound⟩
    · rintro ⟨hnumeral, hbound⟩
      cases hnumeral with
      | plain hdigits => exact ⟨hdigits, rfl, hbound⟩
      | @plus digits _ => exact absurd rfl (hunsigned digits)

theorem le_maxNat64_iff {n : Nat} : n ≤ maxNat64 ↔ n < UInt64.size := by
  simp only [maxNat64, UInt64.size]
  omega

theorem readNat64_eq_some_iff {text : List Char} {n : Nat} :
    readNat64 text = some n ↔ Numeral text n ∧ n < UInt64.size := by
  rw [readNat64, readUnsigned_eq_some_iff, le_maxNat64_iff]

theorem not_numeral_minus (digits : List Char) (n : Nat) : ¬Numeral ('-' :: digits) n := by
  intro h
  cases h with
  | plain hdigits =>
      have hminus := hdigits.2 '-' List.mem_cons_self
      simp [Char.isDigit] at hminus

theorem readInt64_eq_some_iff {text : List Char} {d : Int} :
    readInt64 text = some d ↔ SignedNumeral text d ∧ -(2 ^ 63) ≤ d ∧ d < 2 ^ 63 := by
  unfold readInt64
  split
  · rename_i digits
    rw [Option.map_eq_some_iff]
    simp only [readBounded_eq_some_iff, maxInt64]
    constructor
    · rintro ⟨n, ⟨hdigits, rfl, hbound⟩, rfl⟩
      exact ⟨.minus hdigits, by omega, by omega⟩
    · rintro ⟨hnumeral, hlow, _⟩
      cases hnumeral with
      | natural h => exact absurd h (not_numeral_minus digits _)
      | minus hdigits => exact ⟨_, ⟨hdigits, rfl, by omega⟩, rfl⟩
  · rename_i hunsigned
    rw [Option.map_eq_some_iff]
    simp only [readUnsigned_eq_some_iff, maxInt64]
    constructor
    · rintro ⟨n, ⟨hnumeral, hbound⟩, rfl⟩
      exact ⟨.natural hnumeral, by omega, by omega⟩
    · rintro ⟨hnumeral, _, hhigh⟩
      cases hnumeral with
      | natural h => exact ⟨_, ⟨h, by omega⟩, rfl⟩
      | minus _ => exact absurd rfl (hunsigned _)

/-! ## Writing -/

theorem digitChar_digitValue {c : Char} (h : c.isDigit = true) :
    digitValue c < 10 ∧ Nat.digitChar (digitValue c) = c := by
  have hrange := toNat_of_isDigit h
  have hvalue : digitValue c = c.toNat - 48 := rfl
  refine ⟨by omega, Char.toNat_inj.mp ?_⟩
  rw [Nat.toNat_digitChar_of_lt_ten (by omega)]
  omega

theorem toDigits_append {value : Nat} (hvalue : 0 < value) {digits : List Char}
    (h : ∀ c ∈ digits, c.isDigit = true) :
    Nat.toDigits 10 value ++ digits = Nat.toDigits 10 (ofDigitChars 10 digits value) := by
  induction digits generalizing value with
  | nil => simp
  | cons c cs ih =>
      obtain ⟨hless, hchar⟩ := digitChar_digitValue (h c List.mem_cons_self)
      have hone : Nat.toDigits 10 value ++ [c] = Nat.toDigits 10 (10 * value + digitValue c) := by
        rw [← Nat.toDigits_append_toDigits (by decide) hvalue hless, Nat.toDigits_of_lt_base hless,
          hchar]
      calc Nat.toDigits 10 value ++ c :: cs
          = (Nat.toDigits 10 value ++ [c]) ++ cs := by simp
        _ = Nat.toDigits 10 (10 * value + digitValue c) ++ cs := by rw [hone]
        _ = Nat.toDigits 10 (ofDigitChars 10 cs (10 * value + digitValue c)) :=
            ih (by omega) fun d hd => h d (List.mem_cons_of_mem c hd)
        _ = Nat.toDigits 10 (ofDigitChars 10 (c :: cs) value) := by
            rw [Nat.ofDigitChars_cons]
            rfl

theorem isDigits_toDigits (n : Nat) : IsDigits (Nat.toDigits 10 n) :=
  ⟨Nat.toDigits_ne_nil, fun _ hc => Nat.isDigit_of_mem_toDigits (by decide) (by decide) hc⟩

theorem head?_toDigits {n : Nat} (h : 0 < n) : (Nat.toDigits 10 n).head? ≠ some '0' := by
  induction n using Nat.strongRecOn with
  | ind n ih =>
      by_cases hless : n < 10
      · rw [Nat.toDigits_of_lt_base hless]
        intro hzero
        have hvalue := congrArg Char.toNat (Option.some.inj hzero)
        rw [Nat.toNat_digitChar_of_lt_ten hless] at hvalue
        simp at hvalue
        omega
      · have hshort : 0 < n / 10 := by omega
        have hsplit := Nat.toDigits_append_toDigits (b := 10) (d := n % 10) (by decide) hshort
          (Nat.mod_lt n (by decide))
        rw [Nat.div_add_mod] at hsplit
        rw [← hsplit, List.head?_append, Option.or_of_isSome
          (List.isSome_head?.mpr (by simp))]
        exact ih (n / 10) (by omega) hshort

theorem isDecimal_iff {text : List Char} {n : Nat} :
    IsDecimal text n ↔ text = Nat.toDigits 10 n := by
  constructor
  · rintro ⟨⟨hne, hdigits⟩, rfl, hunpadded⟩
    cases text with
    | nil => exact absurd rfl hne
    | cons c cs =>
        obtain ⟨hless, hchar⟩ := digitChar_digitValue (hdigits c List.mem_cons_self)
        by_cases hzero : digitValue c = 0
        · have hc : c = '0' := by rw [← hchar, hzero]; rfl
          rw [hunpadded (by rw [hc]; rfl)]
          decide
        · have h := toDigits_append (Nat.pos_of_ne_zero hzero)
            fun d hd => hdigits d (List.mem_cons_of_mem c hd)
          rw [Nat.toDigits_of_lt_base hless, hchar] at h
          rw [Nat.ofDigitChars_cons]
          simpa [digitValue] using h
  · rintro rfl
    refine ⟨isDigits_toDigits n, Nat.ofDigitChars_toDigits (by decide) (by decide), ?_⟩
    intro hhead
    rcases Nat.eq_zero_or_pos n with rfl | hpos
    · decide
    · exact absurd hhead (head?_toDigits hpos)

theorem numeral_toDigits (n : Nat) : Numeral (Nat.toDigits 10 n) n := by
  have h := Numeral.plain (isDigits_toDigits n)
  rwa [Nat.ofDigitChars_toDigits (by decide) (by decide)] at h

/-! ## Blank ends -/

def IsBlank (text : List Char) : Prop := ∀ c ∈ text, isBlank c = true

theorem dropWhile_blank {before text : List Char} (hbefore : IsBlank before)
    (h : ∀ c, text.head? = some c → isBlank c = false) :
    (before ++ text).dropWhile isBlank = text := by
  induction before with
  | nil =>
      cases text with
      | nil => rfl
      | cons c cs => simp [h c rfl]
  | cons b before ih =>
      rw [List.cons_append, List.dropWhile_cons_of_pos (hbefore b List.mem_cons_self)]
      exact ih fun c hc => hbefore c (List.mem_cons_of_mem b hc)

/-- What blank characters at both ends leave is what `trim` finds. -/
theorem trim_eq {before text after : List Char} (hbefore : IsBlank before) (hafter : IsBlank after)
    (hhead : ∀ c, text.head? = some c → isBlank c = false)
    (hlast : ∀ c, text.getLast? = some c → isBlank c = false) :
    trim (before ++ text ++ after) = text := by
  have hrest : ((before ++ text ++ after).dropWhile isBlank).reverse.dropWhile isBlank =
      text.reverse := by
    have hreverse : IsBlank after.reverse := fun c hc => hafter c (List.mem_reverse.mp hc)
    by_cases hempty : text = []
    · subst hempty
      have hall : IsBlank (before ++ after) := by
        intro c hc
        rcases List.mem_append.mp hc with hc | hc
        · exact hbefore c hc
        · exact hafter c hc
      have hnone := @dropWhile_blank (before ++ after) [] hall (by simp)
      rw [List.append_nil] at hnone ⊢
      rw [hnone]
      rfl
    · rw [List.append_assoc, dropWhile_blank hbefore, List.reverse_append]
      · refine dropWhile_blank hreverse fun c hc => hlast c ?_
        rwa [List.head?_reverse] at hc
      · intro c hc
        rw [List.head?_append, Option.or_of_isSome (by simpa using hempty)] at hc
        exact hhead c hc
  rw [trim, hrest, List.reverse_reverse]

theorem exists_blank_prefix (text : List Char) :
    ∃ before, IsBlank before ∧ text = before ++ text.dropWhile isBlank :=
  ⟨text.takeWhile isBlank, fun _ hc => List.mem_takeWhile_imp hc,
    List.takeWhile_append_dropWhile.symm⟩

/-- Every text is what `trim` finds in it, between blank characters. -/
theorem exists_blank_ends (text : List Char) :
    ∃ before after, IsBlank before ∧ IsBlank after ∧ text = before ++ trim text ++ after := by
  obtain ⟨before, hbefore, htext⟩ := exists_blank_prefix text
  obtain ⟨after, hafter, hrest⟩ := exists_blank_prefix (text.dropWhile isBlank).reverse
  refine ⟨before, after.reverse, hbefore, fun c hc => hafter c (List.mem_reverse.mp hc), ?_⟩
  have hrest' := congrArg List.reverse hrest
  rw [List.reverse_reverse, List.reverse_append] at hrest'
  rw [List.append_assoc, trim, ← hrest']
  exact htext

theorem isBlank_of_isDigit {c : Char} (h : c.isDigit = true) : isBlank c = false := by
  have hrange := toNat_of_isDigit h
  simp only [isBlank, CharRanges.contains, blankRanges, List.any_cons, List.any_nil, Bool.or_false,
    Bool.or_eq_false_iff, Bool.and_eq_false_iff, decide_eq_false_iff_not]
  omega

theorem Numeral.not_blank {text : List Char} {n : Nat} (h : Numeral text n) {c : Char}
    (hc : c ∈ text) : isBlank c = false := by
  cases h with
  | plain hdigits => exact isBlank_of_isDigit (hdigits.2 c hc)
  | plus hdigits =>
      rcases List.mem_cons.mp hc with rfl | hc
      · decide
      · exact isBlank_of_isDigit (hdigits.2 c hc)

def HoldsNumber (text : List Char) (n : Nat) : Prop :=
  ∃ before numeral after, text = before ++ numeral ++ after ∧ IsBlank before ∧ IsBlank after ∧
    Numeral numeral n

theorem numeral_trim_iff {text : List Char} {n : Nat} :
    Numeral (trim text) n ↔ HoldsNumber text n := by
  constructor
  · intro h
    obtain ⟨before, after, hbefore, hafter, htext⟩ := exists_blank_ends text
    exact ⟨before, trim text, after, htext, hbefore, hafter, h⟩
  · rintro ⟨before, numeral, after, rfl, hbefore, hafter, h⟩
    rwa [trim_eq hbefore hafter (fun c hc => h.not_blank (List.mem_of_head? hc))
      (fun c hc => h.not_blank (List.mem_of_getLast? hc))]

end RehashChart.Text
