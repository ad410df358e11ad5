import RehashChart.Log.Event
import RehashChart.Proofs.Benchmark.Numbers
import RehashChart.Proofs.Chart.Bars

/-! # Runs from their text and from their bars

The text of the runs is read back by a reader that accepts such texts only, so different runs have
different texts. The bars of a chart give the runs back one by one.
-/

namespace RehashChart

/-- The run that a bar stands for: its label is read as a number, its height taken as it is. -/
def Bar.sample? (bar : Bar) : Option Sample :=
  (Benchmark.numberIn bar.label).map fun size => ⟨size, bar.height⟩

namespace Benchmark

/-! ## Reading -/

/-- The number whose decimal text this is; zeros before a number are not part of one. -/
def readDecimal (text : List Char) : Option UInt64 :=
  if text.head? = some '0' ∧ text ≠ ['0'] then none
  else (Text.readBounded Text.maxNat64 text).map UInt64.ofNat

def readSpaced : List Char → Option UInt64
  | ' ' :: text => readDecimal text
  | _ => none

def readNumbers : List Char → Option (List UInt64)
  | [] => some []
  -- with one more space in front, all parts between commas are alike
  | text => ((' ' :: text).splitOn ',').mapM readSpaced

def readLists (text : String) : Option (List UInt64 × List UInt64) :=
  match text.toList.splitOn ']' with
  | ['[' :: sizes, ' ' :: '[' :: rounds, []] => do
      return (← readNumbers sizes, ← readNumbers rounds)
  | _ => none

/-- The runs that a text tells of; it has to list as many sizes as rounds. -/
def readSamples (text : String) : Option (List Sample) :=
  match readLists text with
  | some (sizes, rounds) =>
      if sizes.length = rounds.length then
        some ((sizes.zip rounds).map fun (size, rounds) => ⟨size, rounds⟩)
      else none
  | none => none

/-! ## Single numbers -/

def digitsOf (n : UInt64) : List Char := Nat.toDigits 10 n.toNat

theorem digitsOf_ne_nil (n : UInt64) : digitsOf n ≠ [] :=
  (Text.isDigits_toDigits n.toNat).1

theorem isDigit_of_mem_digitsOf {n : UInt64} {c : Char} (h : c ∈ digitsOf n) :
    c.isDigit = true :=
  (Text.isDigits_toDigits n.toNat).2 c h

theorem notMem_digitsOf {c : Char} (hc : c.isDigit = false) (n : UInt64) : c ∉ digitsOf n := by
  intro h
  exact Bool.false_ne_true (hc.symm.trans (isDigit_of_mem_digitsOf h))

theorem readDecimal_eq_some_iff {text : List Char} {n : UInt64} :
    readDecimal text = some n ↔ text = digitsOf n := by
  rw [digitsOf, ← Text.isDecimal_iff, readDecimal]
  constructor
  · intro hread
    split at hread
    · cases hread
    · rename_i hunpadded
      obtain ⟨k, hk, rfl⟩ := Option.map_eq_some_iff.mp hread
      obtain ⟨hdigits, hvalue, hbound⟩ := Text.readBounded_eq_some_iff.mp hk
      refine ⟨hdigits, ?_, fun hzero => by_contra fun hne => hunpadded ⟨hzero, hne⟩⟩
      rw [hvalue, UInt64.toNat_ofNat_of_lt' (Text.le_maxNat64_iff.mp hbound)]
  · rintro ⟨hdigits, hvalue, hunpadded⟩
    have hbound : n.toNat ≤ Text.maxNat64 := Text.le_maxNat64_iff.mpr n.toNat_lt
    rw [if_neg fun h => h.2 (hunpadded h.1),
      Text.readBounded_eq_some_iff.mpr ⟨hdigits, hvalue, hbound⟩, Option.map_some,
      UInt64.ofNat_toNat]

theorem readSpaced_eq_some_iff {text : List Char} {n : UInt64} :
    readSpaced text = some n ↔ text = ' ' :: digitsOf n := by
  unfold readSpaced
  split
  · rw [readDecimal_eq_some_iff, List.cons.injEq, eq_self, true_and]
  · rename_i hspace
    simpa using hspace (digitsOf n)

/-! ## Lists of numbers -/

/-- If a step undoes `g` and accepts nothing else, so it does element by element. -/
theorem mapM_eq_some_iff {α β : Type} {f : α → Option β} {g : β → α}
    (h : ∀ a b, f a = some b ↔ a = g b) {list : List α} {values : List β} :
    list.mapM f = some values ↔ list = values.map g := by
  induction list generalizing values with
  | nil => cases values <;> simp
  | cons a list ih =>
      cases values with
      | nil => simp [Option.bind_eq_some_iff]
      | cons b values => simp [Option.bind_eq_some_iff, h, ih]

theorem splitOn_eq_iff {separator : Char} {text : List Char} {parts : List (List Char)}
    (hne : parts ≠ []) (h : ∀ part ∈ parts, separator ∉ part) :
    text.splitOn separator = parts ↔ text = [separator].intercalate parts := by
  constructor
  · rintro rfl
    exact (List.intercalate_splitOn separator).symm
  · rintro rfl
    exact List.splitOn_intercalate separator h hne

def listed (numbers : List UInt64) : List Char :=
  [',', ' '].intercalate (numbers.map digitsOf)

@[simp] theorem listed_nil : listed [] = [] := rfl

@[simp] theorem listed_singleton (n : UInt64) : listed [n] = digitsOf n := by
  simp [listed]

theorem listed_cons_cons (n m : UInt64) (numbers : List UInt64) :
    listed (n :: m :: numbers) = digitsOf n ++ ',' :: ' ' :: listed (m :: numbers) := by
  simp [listed, List.intercalate_cons_cons]

theorem toList_renderNumbers (numbers : List UInt64) :
    (renderNumbers numbers).toList = '[' :: listed numbers ++ [']'] := by
  have hdigits : (numbers.map fun n => toString n.toNat).map String.toList =
      numbers.map digitsOf := by
    rw [List.map_map]
    refine List.map_congr_left fun n _ => ?_
    rw [Function.comp_apply, Nat.toString_eq_repr, Nat.toList_repr, digitsOf]
  simp only [renderNumbers, String.toList_append, String.toList_intercalate, hdigits]
  rfl

theorem mem_listed {numbers : List UInt64} {c : Char} (h : c ∈ listed numbers) :
    c.isDigit = true ∨ c = ',' ∨ c = ' ' := by
  induction numbers with
  | nil => simp at h
  | cons n numbers ih =>
      cases numbers with
      | nil =>
          rw [listed_singleton] at h
          exact .inl (isDigit_of_mem_digitsOf h)
      | cons m numbers =>
          rw [listed_cons_cons, List.mem_append, List.mem_cons, List.mem_cons] at h
          rcases h with h | h | h | h
          · exact .inl (isDigit_of_mem_digitsOf h)
          · exact .inr (.inl h)
          · exact .inr (.inr h)
          · exact ih h

theorem notMem_listed (numbers : List UInt64) : ']' ∉ listed numbers := by
  intro h
  rcases mem_listed h with hdigit | hcomma | hspace
  · exact absurd hdigit (by decide)
  · exact absurd hcomma (by decide)
  · exact absurd hspace (by decide)

theorem listed_eq_nil_iff {numbers : List UInt64} : listed numbers = [] ↔ numbers = [] := by
  cases numbers with
  | nil => simp
  | cons n numbers =>
      cases numbers with
      | nil => simp [digitsOf_ne_nil]
      | cons m numbers => simp [listed_cons_cons]

/-- With one more space in front, every number of a list has one before it. -/
theorem space_listed {numbers : List UInt64} (h : numbers ≠ []) :
    ' ' :: listed numbers = [','].intercalate (numbers.map fun n => ' ' :: digitsOf n) := by
  induction numbers with
  | nil => exact absurd rfl h
  | cons n numbers ih =>
      cases numbers with
      | nil => simp
      | cons m numbers =>
          rw [listed_cons_cons, ih (List.cons_ne_nil m numbers)]
          simp [List.intercalate_cons_cons]

theorem readNumbers_eq_some_iff {text : List Char} {numbers : List UInt64} :
    readNumbers text = some numbers ↔ text = listed numbers := by
  cases text with
  | nil => rw [readNumbers, Option.some.injEq, eq_comm, ← listed_eq_nil_iff, eq_comm]
  | cons c text =>
      have hread : readNumbers (c :: text) = some numbers ↔
          (' ' :: c :: text).splitOn ',' = numbers.map fun n => ' ' :: digitsOf n :=
        mapM_eq_some_iff fun _ _ => readSpaced_eq_some_iff
      rw [hread]
      by_cases hnone : numbers = []
      · simp [hnone, List.splitOn_ne_nil]
      · rw [splitOn_eq_iff (by simpa using hnone) (by simp [notMem_digitsOf]),
          ← space_listed hnone, List.cons.injEq, eq_self, true_and]

/-! ## The text of the runs -/

theorem readLists_eq_some_iff {text : String} {sizes rounds : List UInt64} :
    readLists text = some (sizes, rounds) ↔
      text = renderNumbers sizes ++ " " ++ renderNumbers rounds := by
  have htext : text = renderNumbers sizes ++ " " ++ renderNumbers rounds ↔
      text.toList.splitOn ']' = ['[' :: listed sizes, ' ' :: '[' :: listed rounds, []] := by
    rw [splitOn_eq_iff (by simp) (by simp [notMem_listed]), ← String.toList_inj]
    simp [toList_renderNumbers]
  rw [htext, readLists]
  split
  · rename_i hsplit
    rw [hsplit]
    simp [Option.bind_eq_some_iff, readNumbers_eq_some_iff]
  · rename_i hshape
    constructor
    · intro hread
      cases hread
    · intro hsplit
      exact absurd hsplit (hshape _ _)

theorem lists_of_zip {sizes rounds : List UInt64} (h : sizes.length = rounds.length) :
    insertSizes ((sizes.zip rounds).map fun (size, rounds) => ⟨size, rounds⟩) = sizes ∧
      rehashRounds ((sizes.zip rounds).map fun (size, rounds) => ⟨size, rounds⟩) = rounds := by
  rw [insertSizes, rehashRounds, List.map_map, List.map_map]
  exact ⟨List.map_fst_zip h.le, List.map_snd_zip h.ge⟩

theorem zip_lists (samples : List Sample) :
    ((insertSizes samples).zip (rehashRounds samples)).map
      (fun (size, rounds) => (⟨size, rounds⟩ : Sample)) = samples := by
  rw [insertSizes, rehashRounds, List.zip_map', List.map_map]
  exact List.map_id samples

theorem length_insertSizes (samples : List Sample) :
    (insertSizes samples).length = samples.length :=
  List.length_map _

theorem length_rehashRounds (samples : List Sample) :
    (rehashRounds samples).length = samples.length :=
  List.length_map _

theorem readLists_render (samples : List Sample) :
    readLists (render samples) = some (insertSizes samples, rehashRounds samples) :=
  readLists_eq_some_iff.mpr rfl

theorem readSamples_eq_some_iff {text : String} {samples : List Sample} :
    readSamples text = some samples ↔ text = render samples := by
  constructor
  · intro hread
    unfold readSamples at hread
    split at hread
    · rename_i sizes rounds hlists
      split at hread
      · rename_i hlength
        obtain ⟨hsizes, hrounds⟩ := lists_of_zip hlength
        cases hread
        rw [render, hsizes, hrounds]
        exact readLists_eq_some_iff.mp hlists
      · cases hread
    · cases hread
  · rintro rfl
    rw [readSamples, readLists_render]
    dsimp only
    rw [if_pos ((length_insertSizes samples).trans (length_rehashRounds samples).symm),
      zip_lists]

/-! ## The line in the log -/

theorem spelledChar_of_visible {c : Char} (h : 32 ≤ c.toNat ∧ c.toNat < 127) :
    Log.spelledChar c = [c] := by
  have hne : ∀ d : Char, d.toNat < 32 ∨ 127 ≤ d.toNat → c ≠ d := by
    rintro d hd rfl
    omega
  have hvalue : c.toNat < 128 := by omega
  have hless : c < '\u0080' := UInt32.lt_iff_toNat_lt.mpr hvalue
  rw [Log.spelledChar, if_neg (hne _ (by decide)), if_neg (hne _ (by decide)),
    if_neg (hne _ (by decide)), if_neg (hne _ (by decide)), if_neg (hne _ (by decide)),
    if_neg (by simp [hless])]

theorem visible_of_mem_renderNumbers {numbers : List UInt64} {c : Char}
    (h : c ∈ (renderNumbers numbers).toList) : 32 ≤ c.toNat ∧ c.toNat < 127 := by
  rw [toList_renderNumbers, List.mem_append, List.mem_cons, List.mem_singleton] at h
  rcases h with (rfl | h) | rfl
  · decide
  · rcases mem_listed h with hdigit | rfl | rfl
    · have hrange := Text.toNat_of_isDigit hdigit
      omega
    · decide
    · decide
  · decide

theorem spelled_render (samples : List Sample) : Log.spelled (render samples) = render samples := by
  have hchars : ∀ c ∈ (render samples).toList, Log.spelledChar c = [c] := by
    intro c hc
    rw [render, String.toList_append, String.toList_append, List.mem_append, List.mem_append] at hc
    apply spelledChar_of_visible
    rcases hc with (hc | hc) | hc
    · exact visible_of_mem_renderNumbers hc
    · rw [List.mem_singleton.mp hc]
      decide
    · exact visible_of_mem_renderNumbers hc
  rw [Log.spelled, List.flatMap_congr hchars, List.flatMap_singleton', String.ofList_toList]

/-! ## The bars of the runs -/

theorem samples_bars (samples : List Sample) :
    (BarChart.ofSamples samples).bars.map Bar.sample? = samples.map some := by
  refine BarChart.map_ofSamples (fun i sample => ?_) samples
  rw [Bar.sample?, numberIn_label, Option.map_some]

/-- The text of the runs and the bars of their chart tell all of them. The text is read back, other
runs have another text, and of the two lists it consists of none can be mistaken for others; the log
shows it as it is. The bars are read back one by one, each at the place of its row. -/
theorem text_and_bars_tell_samples (samples : List Sample) :
    (∀ text, readSamples text = some samples ↔ text = render samples) ∧
    (∀ other, render other = render samples ↔ other = samples) ∧
    (∀ sizes rounds, renderNumbers sizes ++ " " ++ renderNumbers rounds = render samples ↔
      sizes = insertSizes samples ∧ rounds = rehashRounds samples) ∧
    (insertSizes samples).length = samples.length ∧
    (rehashRounds samples).length = samples.length ∧
    Log.spelled (render samples) = render samples ∧
    (BarChart.ofSamples samples).bars.length = samples.length ∧
    (BarChart.ofSamples samples).bars.map Bar.position = List.range samples.length ∧
    (BarChart.ofSamples samples).bars.map Bar.sample? = samples.map some := by
  refine ⟨fun text => readSamples_eq_some_iff, ?_, ?_, length_insertSizes samples,
    length_rehashRounds samples, spelled_render samples, BarChart.length_ofSamples samples,
    BarChart.positions_ofSamples samples, samples_bars samples⟩
  · intro other
    have hread : readSamples (render other) = some other := readSamples_eq_some_iff.mpr rfl
    rw [← readSamples_eq_some_iff, hread, Option.some.injEq]
  · intro sizes rounds
    rw [eq_comm, ← readLists_eq_some_iff, readLists_render, Option.some.injEq, Prod.mk.injEq,
      eq_comm, @eq_comm _ (rehashRounds samples)]

example : readSamples "[200, 100, 200] [2, 0, 18446744073709551615]" =
    some [⟨200, 2⟩, ⟨100, 0⟩, ⟨200, 18446744073709551615⟩] := by decide

/-- Two lists of different lengths are no text of runs. -/
example : readSamples "[1, 2] [3]" = none := by decide

end Benchmark

end RehashChart
