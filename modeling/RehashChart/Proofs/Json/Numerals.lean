import RehashChart.Json.Reader
import RehashChart.Json.Writer
import RehashChart.Proofs.Binary64.Shortest
import RehashChart.Proofs.Text.Integers

/-! # Numbers in JSON text, written and read

Whatever the layout of a number, its parts are read back one for one, and as one whole number times
a power of ten they are in the basin of the number that was written.
-/

namespace RehashChart.Json

open Binary64 (Digits digitsToNat shortest spanDigits zeros)
open Text (IsDigits)

/-! ## The parts of a number -/

namespace Numeral

/-- The digits of a number as one whole number. -/
def significand (n : Numeral) : Nat := digitsToNat (n.whole ++ n.fraction)

def writtenExponent (n : Numeral) : Int :=
  (n.exponent.map fun (negative, digits) =>
    if negative then -(digitsToNat digits : Int) else digitsToNat digits).getD 0

/-- The power of ten that the digits as one whole number are of. -/
def power (n : Numeral) : Int := n.writtenExponent - n.fraction.length

def IsFloat (n : Numeral) : Prop := n.fraction ≠ [] ∨ n.exponent ≠ none

/-- The parts are what a number can be written with. -/
structure Sound (n : Numeral) : Prop where
  whole : IsDigits n.whole
  unpadded : n.whole.head? = some '0' → n.whole = ['0']
  fraction : ∀ c ∈ n.fraction, c.isDigit = true
  exponent : ∀ p ∈ n.exponent, IsDigits p.2

def fractionText : List Char → List Char
  | [] => []
  | digits => '.' :: digits

def exponentText : Option (Bool × List Char) → List Char
  | none => []
  | some (negative, digits) => 'e' :: (if negative then '-' else '+') :: digits

def unsigned (n : Numeral) : List Char :=
  n.whole ++ (fractionText n.fraction ++ exponentText n.exponent)

end Numeral

/-! ## Reading -/

/-- A number ends before this: at the end of a text, or where an object goes on or ends. -/
def Ends (rest : List Char) : Prop := ∀ c ∈ rest.head?, c = ',' ∨ c = '\x7d'

theorem ends_nil : Ends [] := fun _ h => nomatch h

theorem ends_comma (rest : List Char) : Ends (',' :: rest) :=
  fun _ h => .inl (Option.some.inj h).symm

theorem ends_brace (rest : List Char) : Ends ('\x7d' :: rest) :=
  fun _ h => .inr (Option.some.inj h).symm

theorem spanDigits_append {digits rest : List Char} (hdigits : ∀ c ∈ digits, c.isDigit = true)
    (hrest : ∀ c ∈ rest.head?, c.isDigit = false) :
    spanDigits (digits ++ rest) = (digits, rest) := by
  rw [spanDigits, List.takeWhile_append_of_pos hdigits, List.dropWhile_append_of_pos hdigits]
  cases rest with
  | nil => simp
  | cons c cs =>
      have hc := hrest c rfl
      simp [hc]

theorem readWhole_append {whole rest : List Char} (hwhole : IsDigits whole)
    (hunpadded : whole.head? = some '0' → whole = ['0'])
    (hrest : ∀ c ∈ rest.head?, c.isDigit = false) :
    readWhole (whole ++ rest) = some (whole, rest) := by
  rw [readWhole, spanDigits_append hwhole.2 hrest]
  split
  · rename_i hspan
    cases hspan
    exact absurd rfl hwhole.1
  · rename_i c cs _ hspan
    cases hspan
    exact absurd (hunpadded rfl) (by simp)
  · rfl

theorem readFraction_append {fraction rest : List Char}
    (hfraction : ∀ c ∈ fraction, c.isDigit = true)
    (hrest : ∀ c ∈ rest.head?, c.isDigit = false ∧ c ≠ '.') :
    readFraction (Numeral.fractionText fraction ++ rest) = some (fraction, rest) := by
  cases fraction with
  | nil =>
      rw [Numeral.fractionText, List.nil_append, readFraction]
      rintro cs rfl
      exact (hrest '.' rfl).2 rfl
  | cons c cs =>
      have hspan := spanDigits_append hfraction fun c hc => (hrest c hc).1
      have htext : Numeral.fractionText (c :: cs) = '.' :: c :: cs := rfl
      rw [htext, List.cons_append, readFraction, hspan]

theorem readExponent_append {exponent : Option (Bool × List Char)} {rest : List Char}
    (hexponent : ∀ p ∈ exponent, IsDigits p.2) (hrest : Ends rest) :
    readExponent (Numeral.exponentText exponent ++ rest) = some (exponent, rest) := by
  cases exponent with
  | none =>
      rw [Numeral.exponentText, List.nil_append]
      cases rest with
      | nil => rfl
      | cons c cs =>
          have hc : ¬((c = 'e' || c = 'E') = true) := by
            rcases hrest c rfl with rfl | rfl <;> decide
          rw [readExponent, if_neg hc]
  | some p =>
      obtain ⟨negative, digits⟩ := p
      obtain ⟨hne, hdigits⟩ := hexponent _ rfl
      have hspan : spanDigits (digits ++ rest) = (digits, rest) := by
        refine spanDigits_append hdigits fun c hc => ?_
        rcases hrest c hc with rfl | rfl <;> decide
      cases digits with
      | nil => exact absurd rfl hne
      | cons d ds =>
          cases negative <;>
          · simp only [Numeral.exponentText, List.cons_append, readExponent, Bool.false_eq_true,
              if_false, if_true, Binary64.spanSign]
            rw [← List.cons_append, hspan]
            rfl

theorem head?_fractionText_append {fraction rest : List Char} {c : Char}
    (h : c ∈ (Numeral.fractionText fraction ++ rest).head?) : c = '.' ∨ c ∈ rest.head? := by
  cases fraction with
  | nil => exact .inr h
  | cons d ds => exact .inl (Option.some.inj h).symm

theorem head?_exponentText_append {exponent : Option (Bool × List Char)} {rest : List Char}
    {c : Char} (h : c ∈ (Numeral.exponentText exponent ++ rest).head?) : c = 'e' ∨ c ∈ rest.head? := by
  cases exponent with
  | none => exact .inr h
  | some p => exact .inl (Option.some.inj h).symm

theorem readNumeral_unsigned {n : Numeral} (hn : n.Sound) {rest : List Char} (hrest : Ends rest) :
    readNumeral n.negative (n.unsigned ++ rest) = some (n, rest) := by
  have hexponent : ∀ c ∈ (Numeral.exponentText n.exponent ++ rest).head?,
      c.isDigit = false ∧ c ≠ '.' := by
    intro c hc
    rcases head?_exponentText_append hc with rfl | hc
    · decide
    · rcases hrest c hc with rfl | rfl <;> decide
  have hfraction : ∀ c ∈ (Numeral.fractionText n.fraction ++
      (Numeral.exponentText n.exponent ++ rest)).head?, c.isDigit = false := by
    intro c hc
    rcases head?_fractionText_append hc with rfl | hc
    · decide
    · exact (hexponent c hc).1
  rw [readNumeral, Numeral.unsigned, List.append_assoc, List.append_assoc,
    readWhole_append hn.whole hn.unpadded hfraction]
  simp only [Option.bind_eq_bind, Option.bind_some]
  rw [readFraction_append hn.fraction hexponent]
  simp only [Option.bind_some]
  rw [readExponent_append hn.exponent hrest]
  rfl

theorem exists_cons_unsigned {n : Numeral} (hn : n.Sound) :
    ∃ c cs, n.unsigned = c :: cs ∧ c.isDigit = true := by
  obtain ⟨hne, hdigits⟩ := hn.whole
  cases hwhole : n.whole with
  | nil => exact absurd hwhole hne
  | cons c cs =>
      rw [hwhole] at hdigits
      exact ⟨c, _, by rw [Numeral.unsigned, hwhole]; rfl, hdigits c List.mem_cons_self⟩

theorem readFlat_number {n : Numeral} (hn : n.Sound) {rest : List Char} (hrest : Ends rest) :
    readFlat ((Binary64.signed n.negative n.unsigned).toList ++ rest) = some (.number n, rest) := by
  have hread := readNumeral_unsigned hn hrest
  rw [Binary64.signed, String.toList_ofList]
  split
  · rename_i hnegative
    rw [hnegative] at hread
    rw [List.cons_append, readFlat, hread]
    rfl
  · rename_i hpositive
    rw [Bool.eq_false_of_not_eq_true hpositive] at hread
    obtain ⟨c, cs, hcons, hc⟩ := exists_cons_unsigned hn
    have hne : ∀ d : Char, d.isDigit = false → c ≠ d := by
      rintro d hd rfl
      exact Bool.false_ne_true (hd.symm.trans hc)
    rw [hcons, List.cons_append] at hread ⊢
    rw [readFlat, hread]
    · rfl
    all_goals exact fun _ h => hne _ (by decide) (List.cons.inj h).1

/-! ## Writing -/

/-- The parts that digits with a point are written as. -/
def layout (negative : Bool) (d : Digits) : Numeral :=
  if -5 < d.point ∧ d.point ≤ 16 then
    if d.point ≤ 0 then ⟨negative, ['0'], zeros (-d.point).toNat ++ d.digits, none⟩
    else if d.digits.length ≤ d.point then
      ⟨negative, d.digits ++ zeros (d.point.toNat - d.digits.length), ['0'], none⟩
    else ⟨negative, d.digits.take d.point.toNat, d.digits.drop d.point.toNat, none⟩
  else
    ⟨negative, d.digits.take 1, d.digits.drop 1,
      some (decide (d.point - 1 < 0), Nat.toDigits 10 (d.point - 1).natAbs)⟩

def numeralOf (negative : Bool) (m : Nat) (e : Int) : Numeral :=
  if m = 0 then ⟨negative, ['0'], ['0'], none⟩ else layout negative (shortest .even m e)

/-- A number that is written tells a magnitude if reading it exactly, and then rounding, gives
that. -/
structure Numeral.Tells (n : Numeral) (q : Rat) : Prop where
  sound : n.Sound
  float : n.IsFloat
  few : n.significand ≤ 10 ^ 17
  exponent : n.writtenExponent.natAbs ≤ 400
  power : -341 ≤ n.power ∧ n.power ≤ 308
  rounds : Binary64.RoundsTo (n.significand * 10 ^ n.power) q

section Layouts

variable {d : Digits} {m : Nat} {e : Int}

theorem fractionText_of_ne_nil {fraction : List Char} (h : fraction ≠ []) :
    Numeral.fractionText fraction = '.' :: fraction := by
  cases fraction with
  | nil => exact absurd rfl h
  | cons c cs => rfl

theorem isDigit_of_mem_zeros {k : Nat} {c : Char} (h : c ∈ zeros k) : c.isDigit = true := by
  rw [List.eq_of_mem_replicate h]
  rfl

theorem unsigned_layout (negative : Bool) (hd : d.digits ≠ []) :
    (layout negative d).unsigned =
      if -5 < d.point ∧ d.point ≤ 16 then d.positional ['.', '0'] else d.scientific := by
  unfold layout Digits.positional Digits.scientific Numeral.unsigned
  split
  · split
    · rw [fractionText_of_ne_nil (by simp [hd])]
      simp [Numeral.exponentText]
    · split
      · simp [Numeral.fractionText, Numeral.exponentText]
      · rename_i hshort
        have hdrop : d.digits.drop d.point.toNat ≠ [] := by
          rw [Ne, List.drop_eq_nil_iff]
          omega
        rw [fractionText_of_ne_nil hdrop]
        simp [Numeral.exponentText]
  · cases hdigits : d.digits with
    | nil => exact absurd hdigits hd
    | cons c cs =>
        cases cs with
        | nil => simp [Numeral.fractionText, Numeral.exponentText]
        | cons c' cs => simp [Numeral.fractionText, Numeral.exponentText]

theorem numberText_finite (s : Bool) (h : Binary64.Canonical m e) :
    numberText (.finite s m e h) = Binary64.signed s (numeralOf s m e).unsigned := by
  rw [numberText, numeralOf]
  by_cases hm : m = 0
  · rw [if_pos hm, if_pos hm]
    rfl
  · have htell := Binary64.shortest_tell .even h (Nat.pos_of_ne_zero hm)
    rw [if_neg hm, if_neg hm, unsigned_layout s htell.digits.1]

theorem digitsToNat_append (xs ys : List Char) :
    digitsToNat (xs ++ ys) = 10 ^ ys.length * digitsToNat xs + digitsToNat ys := by
  calc digitsToNat (xs ++ ys) = Nat.ofDigitChars 10 ys (digitsToNat xs) :=
        Nat.ofDigitChars_append 0
    _ = 10 ^ ys.length * digitsToNat xs + digitsToNat ys :=
        Nat.ofDigitChars_eq_ofDigitChars_zero

theorem digitsToNat_toDigits (n : Nat) : digitsToNat (Nat.toDigits 10 n) = n :=
  Nat.ofDigitChars_ten_toDigits

theorem digitsToNat_zeros (k : Nat) : digitsToNat (zeros k) = 0 :=
  (Nat.ofDigitChars_replicate_zero).trans (Nat.mul_zero _)

/-- The parts of a layout have the digits, some zeros apart that the power of ten makes up for. -/
theorem layout_significand (negative : Bool) (hd : d.digits ≠ []) :
    ∃ k : Nat, (layout negative d).significand = digitsToNat d.digits * 10 ^ k ∧
      (layout negative d).power = d.point - d.digits.length - k ∧
      (k = 0 ∨ d.digits.length + k ≤ 17) := by
  unfold layout Numeral.significand Numeral.power Numeral.writtenExponent
  split
  · rename_i hnear
    split
    · rename_i hsmall
      refine ⟨0, ?_, ?_, .inl rfl⟩
      · simp only [List.singleton_append]
        have hzeros : '0' :: (zeros (-d.point).toNat ++ d.digits) =
            zeros ((-d.point).toNat + 1) ++ d.digits := by
          rw [zeros, zeros, List.replicate_succ, List.cons_append]
        rw [hzeros, digitsToNat_append, digitsToNat_zeros]
        simp
      · simp [zeros]
        omega
    · split
      · rename_i hwhole
        refine ⟨d.point.toNat - d.digits.length + 1, ?_, ?_, .inr (by omega)⟩
        · have hzeros : d.digits ++ zeros (d.point.toNat - d.digits.length) ++ ['0'] =
              d.digits ++ zeros (d.point.toNat - d.digits.length + 1) := by
            rw [List.append_assoc, zeros, zeros, List.replicate_succ']
          rw [hzeros, digitsToNat_append, digitsToNat_zeros, zeros, List.length_replicate,
            Nat.add_zero, Nat.mul_comm]
        · simp
          omega
      · refine ⟨0, ?_, ?_, .inl rfl⟩
        · simp
        · simp
          omega
  · have hlength : 0 < d.digits.length := List.length_pos_iff.mpr hd
    refine ⟨0, ?_, ?_, .inl rfl⟩
    · simp only [List.take_append_drop, pow_zero, mul_one]
    · simp only [Option.map_some, Option.getD_some, digitsToNat_toDigits, Text.signed_natAbs,
        List.length_drop]
      omega

theorem layout_sound (negative : Bool) (h : d.Tell m e) : (layout negative d).Sound := by
  obtain ⟨hne, hdigits⟩ := h.digits
  obtain ⟨c, cs, hcons⟩ := List.exists_cons_of_ne_nil hne
  have hc : c ≠ '0' := by
    rintro rfl
    exact h.unpadded (by rw [hcons]; rfl)
  have htake : ∀ k, 0 < k → IsDigits (d.digits.take k) ∧
      ((d.digits.take k).head? = some '0' → d.digits.take k = ['0']) := by
    intro k hk
    obtain ⟨k, rfl⟩ := Nat.exists_eq_succ_of_ne_zero hk.ne'
    refine ⟨⟨?_, fun c hc => hdigits c (List.mem_of_mem_take hc)⟩, ?_⟩
    · rw [hcons]
      simp
    · rw [hcons]
      intro hzero
      exact absurd (Option.some.inj hzero) hc
  have hzero : IsDigits ['0'] := ⟨by simp, by simp⟩
  unfold layout
  split
  · split
    · refine ⟨hzero, fun _ => rfl, ?_, fun _ hp => nomatch hp⟩
      intro c hc
      rcases List.mem_append.mp hc with hc | hc
      · exact isDigit_of_mem_zeros hc
      · exact hdigits c hc
    · split
      · refine ⟨⟨by simp [hne], ?_⟩, ?_, hzero.2, fun _ hp => nomatch hp⟩
        · intro c hc
          rcases List.mem_append.mp hc with hc | hc
          · exact hdigits c hc
          · exact isDigit_of_mem_zeros hc
        · intro hhead
          rw [List.head?_append_of_ne_nil _ hne] at hhead
          exact absurd hhead h.unpadded
      · obtain ⟨hwhole, hunpadded⟩ := htake d.point.toNat (by omega)
        exact ⟨hwhole, hunpadded, fun c hc => hdigits c (List.mem_of_mem_drop hc),
          fun _ hp => nomatch hp⟩
  · obtain ⟨hwhole, hunpadded⟩ := htake 1 (by decide)
    refine ⟨hwhole, hunpadded, fun c hc => hdigits c (List.mem_of_mem_drop hc), ?_⟩
    intro p hp
    cases hp
    exact Text.isDigits_toDigits _

theorem layout_isFloat (negative : Bool) (hd : d.digits ≠ []) : (layout negative d).IsFloat := by
  unfold layout Numeral.IsFloat
  split
  · refine .inl ?_
    split
    · simp [hd]
    · split
      · simp
      · rw [Ne, List.drop_eq_nil_iff]
        omega
  · exact .inr (by simp)

theorem layout_exponent (negative : Bool) (hlow : -323 ≤ d.point) (hhigh : d.point ≤ 309) :
    (layout negative d).writtenExponent.natAbs ≤ 400 := by
  unfold layout Numeral.writtenExponent
  split
  · split
    · exact Nat.zero_le _
    · split <;> exact Nat.zero_le _
  · simp only [Option.map_some, Option.getD_some, digitsToNat_toDigits, Text.signed_natAbs]
    omega

theorem layout_tells (negative : Bool) (h : d.Tell m e) (hcanonical : Binary64.Canonical m e)
    (hm : 0 < m) : (layout negative d).Tells (m * 2 ^ e) := by
  obtain ⟨hlow, hhigh⟩ := h.point_between hcanonical hm
  obtain ⟨hone, hfew⟩ := h.length_between
  obtain ⟨k, hsignificand, hpower, hk⟩ := layout_significand negative h.digits.1
  refine ⟨layout_sound negative h, layout_isFloat negative h.digits.1, ?_,
    layout_exponent negative hlow hhigh, by omega, ?_⟩
  · rw [hsignificand]
    rcases hk with rfl | hk
    · rw [pow_zero, mul_one]
      exact h.few
    · have hless : digitsToNat d.digits < 10 ^ d.digits.length :=
        (Nat.length_toDigits_le_iff (by decide) hone).mp h.length_eq.le
      calc digitsToNat d.digits * 10 ^ k ≤ 10 ^ d.digits.length * 10 ^ k :=
            Nat.mul_le_mul_right _ hless.le
        _ = 10 ^ (d.digits.length + k) := (pow_add _ _ _).symm
        _ ≤ 10 ^ 17 := Nat.pow_le_pow_right (by decide) hk
  · have hvalue : ((layout negative d).significand : Rat) * 10 ^ (layout negative d).power =
        d.value := by
      rw [hsignificand, hpower, Digits.value, zpow_sub₀ (by norm_num), zpow_natCast]
      push_cast
      field_simp
    rw [hvalue]
    exact Binary64.roundsTo_of_basin_contains hcanonical hm h.basin

theorem numeralOf_tells (s : Bool) (h : Binary64.Canonical m e) :
    (numeralOf s m e).Tells (m * 2 ^ e) := by
  unfold numeralOf
  split
  · rename_i hm
    refine ⟨⟨⟨by simp, by simp⟩, fun _ => rfl, by simp, fun _ hp => nomatch hp⟩,
      .inl (by simp), by revert s; decide, by revert s; decide, by revert s; decide, ?_⟩
    have hzero : (((⟨s, ['0'], ['0'], none⟩ : Numeral).significand : Rat)) = 0 := rfl
    rw [hzero, hm, Nat.cast_zero, zero_mul, zero_mul]
    exact .zero
  · rename_i hm
    have hpos := Nat.pos_of_ne_zero hm
    exact layout_tells s (Binary64.shortest_tell .even h hpos) h hpos

theorem numeralOf_negative (s : Bool) (m : Nat) (e : Int) : (numeralOf s m e).negative = s := by
  unfold numeralOf layout
  split
  · rfl
  · split
    · split
      · rfl
      · split <;> rfl
    · rfl

end Layouts

end RehashChart.Json
