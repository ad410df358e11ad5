import RehashChart.Chart.Bar
import RehashChart.Proofs.Benchmark.Loading
import RehashChart.Proofs.Text.Numerals

/-! # Numbers in fields and labels

A field is read as the number that its digits stand for, or refused as it is. The labels of bars are
numbers in the one form that can be read back.
-/

namespace RehashChart.Benchmark

open Text (HoldsNumber IsDecimal)

theorem numberIn_eq_some_iff {text : String} {v : UInt64} :
    numberIn text = some v ↔ HoldsNumber text.toList v.toNat := by
  rw [numberIn, ← Text.numeral_trim_iff, Option.map_eq_some_iff]
  constructor
  · rintro ⟨n, hread, rfl⟩
    obtain ⟨hnumeral, hless⟩ := Text.readNat64_eq_some_iff.mp hread
    rwa [UInt64.toNat_ofNat_of_lt' hless]
  · intro hnumeral
    exact ⟨v.toNat, Text.readNat64_eq_some_iff.mpr ⟨hnumeral, v.toNat_lt⟩, UInt64.ofNat_toNat⟩

theorem readValue_eq (fields : List String) (index row : Nat) (column : String) :
    readValue fields index row column =
      match numberIn (fieldAt fields index) with
      | some v => .ok v
      | none => .error (.invalidValue row column (fieldAt fields index)) := by
  cases h : numberIn (fieldAt fields index) with
  | some v => exact readValue_of_some h
  | none => exact readValue_of_none h

theorem toList_label (sample : Sample) :
    (toString sample.insertSize.toNat).toList = Nat.toDigits 10 sample.insertSize.toNat := by
  rw [Nat.toString_eq_repr, Nat.toList_repr]

theorem isDecimal_label_iff (sample : Sample) (text : String) :
    IsDecimal text.toList sample.insertSize.toNat ↔ text = toString sample.insertSize.toNat := by
  rw [Text.isDecimal_iff, ← toList_label, String.toList_inj]

theorem numberIn_label (sample : Sample) :
    numberIn (toString sample.insertSize.toNat) = some sample.insertSize := by
  rw [numberIn_eq_some_iff, toList_label]
  exact ⟨[], _, [], by simp, by simp [Text.IsBlank], by simp [Text.IsBlank],
    Text.numeral_toDigits _⟩

theorem forall₂_bars {P : Sample → Bar → Prop}
    (h : ∀ sample bar, bar.label = toString sample.insertSize.toNat → P sample bar)
    (samples : List Sample) : List.Forall₂ P samples (BarChart.ofSamples samples).bars := by
  rw [List.forall₂_iff_get]
  refine ⟨by simp [BarChart.ofSamples], ?_⟩
  intro i hi hi'
  refine h _ _ ?_
  simp [BarChart.ofSamples]

/-- Fields are read exactly, and labels are read as what they were written for. -/
theorem readValue_exact (fields : List String) (index row : Nat) (column : String) :
    (∀ v, readValue fields index row column = .ok v ↔
      HoldsNumber (fieldAt fields index).toList v.toNat) ∧
    (readValue fields index row column =
        .error (.invalidValue row column (fieldAt fields index)) ↔
      ¬∃ v : UInt64, HoldsNumber (fieldAt fields index).toList v.toNat) ∧
    ∀ samples, List.Forall₂ (fun sample bar =>
        (∀ text : String, IsDecimal text.toList sample.insertSize.toNat ↔ text = bar.label) ∧
          readValue [bar.label] 0 row column = .ok sample.insertSize)
      samples (BarChart.ofSamples samples).bars := by
  refine ⟨?_, ?_, ?_⟩
  · intro v
    rw [readValue_eq, ← numberIn_eq_some_iff]
    cases numberIn (fieldAt fields index) <;> simp
  · simp only [readValue_eq, ← numberIn_eq_some_iff]
    cases numberIn (fieldAt fields index) <;> simp
  · refine forall₂_bars ?_
    intro sample bar hlabel
    rw [hlabel]
    exact ⟨isDecimal_label_iff sample, readValue_of_some (numberIn_label sample)⟩

/-- Zeros before a number do not count, and the greatest number is not too large. -/
example : readValue ["\t+000000000000000000000018446744073709551615 "] 0 1 "c" =
    .ok 18446744073709551615 := by decide

end RehashChart.Benchmark
