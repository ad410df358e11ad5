import RehashChart.Proofs.Settings.Entries
import RehashChart.Proofs.Toml.Integers

/-! # The resolution that is asked for

An integer is given for the resolution by a variable, by a document as it stands, or by a document
in quotes. It takes a different way to the setting each time, and each way ends at the integer
itself or at none.
-/

namespace RehashChart.Settings

open Machine
open Text (lowercase_toString toString_ne_of_mem)

/-! ## Integers that are taken -/

variable {d : Int} {n : Nat} {w : UInt32}

theorem takeNatural_integer (origin : Option Origin) :
    takeNatural (.leaf origin (.integer d)) = .ok n ↔ (n : Int) = d := by
  have htake : takeNatural (.leaf origin (.integer d)) =
      if 0 ≤ d then .ok d.toNat else .error ⟨.integer d, .natural, origin⟩ := rfl
  rw [htake]
  by_cases hd : 0 ≤ d
  · rw [if_pos hd, Except.ok.injEq]
    omega
  · rw [if_neg hd]
    exact iff_of_false (fun h => nomatch h) (by omega)

theorem readYesNo_toString (d : Int) : readYesNo (toString d) = none := by
  have hletter (word : String) {c : Char} (hc : c ∈ word.toList) (hdigit : c.isDigit = false)
      (hsign : c ≠ '-') : toString d ≠ word := toString_ne_of_mem d hc hdigit hsign
  have htrue := hletter "true" (c := 't') (by decide) (by decide) (by decide)
  have hon := hletter "on" (c := 'o') (by decide) (by decide) (by decide)
  have hyes := hletter "yes" (c := 'y') (by decide) (by decide) (by decide)
  have hfalse := hletter "false" (c := 'f') (by decide) (by decide) (by decide)
  have hoff := hletter "off" (c := 'o') (by decide) (by decide) (by decide)
  have hno := hletter "no" (c := 'n') (by decide) (by decide) (by decide)
  rw [readYesNo, if_neg (by simp only [htrue, hon, hyes, or_self, not_false_eq_true]),
    if_neg (by simp only [hfalse, hoff, hno, or_self, not_false_eq_true])]

theorem takeNatural_text (origin : Option Origin) :
    takeNatural (.leaf origin (.text (toString d))) = .ok n ↔ (n : Int) = d ∧ n < UInt64.size := by
  have htake : takeNatural (.leaf origin (.text (toString d))) =
      (Text.readNat64 (toString d).toList).elim (.error ⟨.text (toString d), .integer, origin⟩)
        .ok := by
    have hword : readYesNo (Text.lowercase (toString d)) = none := by
      rw [lowercase_toString, readYesNo_toString]
    unfold takeNatural takeLeaf
    dsimp only
    generalize readYesNo (Text.lowercase (toString d)) = word at hword ⊢
    subst hword
    cases Text.readNat64 (toString d).toList <;> rfl
  rw [htake, ← Text.readNat64_toString_eq_some_iff]
  cases Text.readNat64 (toString d).toList <;> simp

theorem leafOfText_toString (d : Int) :
    leafOfText (toString d) = .integer d ∨
      ∃ x, leafOfText (toString d) = .float x ∧ (d < -(2 ^ 63) ∨ 2 ^ 63 ≤ d) ∧
        (x = .infinity (decide (d < 0)) ∨ x = .ofRat (decide (d < 0)) d) := by
  have htrue : toString d ≠ "true" :=
    toString_ne_of_mem d (c := 't') (by decide) (by decide) (by decide)
  have hfalse : toString d ≠ "false" :=
    toString_ne_of_mem d (c := 'f') (by decide) (by decide) (by decide)
  unfold leafOfText
  dsimp only
  rw [lowercase_toString, if_neg htrue, if_neg hfalse, Text.readInt64_toString]
  by_cases hbounds : -(Text.maxInt64 + 1 : Int) ≤ d ∧ d ≤ Text.maxInt64
  · rw [if_pos hbounds]
    exact .inl rfl
  · have hfar : d < -(2 ^ 63) ∨ 2 ^ 63 ≤ d := by
      simp only [Text.maxInt64] at hbounds
      omega
    obtain ⟨x, hread, hx⟩ := Binary64.read_toString (d := d) (by omega)
    rw [if_neg hbounds, hread]
    exact .inr ⟨x, rfl, hfar, hx⟩

/-- A tree that holds an integer, in one of the forms that the ways of giving it end in. -/
inductive Holds (d : Int) : Tree → Prop where
  | integer (origin : Option Origin) : Holds d (.leaf origin (.integer d))
  | digits (origin : Option Origin) : Holds d (.leaf origin (.text (toString d)))
  | ofVariable (origin : Option Origin) : Holds d (.leaf origin (leafOfText (toString d)))

/-- Of an integer, no word other than zero is taken but the integer itself. -/
theorem Holds.takeWord_eq_ok_iff {tree : Tree} (h : Holds d tree) (hw : w ≠ 0) :
    takeWord tree = .ok w ↔ (w.toNat : Int) = d := by
  have hsize : w.toNat < 2 ^ 32 := w.toNat_lt
  have hpos : w.toNat ≠ 0 := fun h => hw (UInt32.toNat_inj.mp h)
  rw [takeWord_eq_ok_iff_takeNatural]
  cases h with
  | integer origin => exact takeNatural_integer origin
  | digits origin =>
      rw [takeNatural_text]
      exact and_iff_left_of_imp fun _ => by simp only [UInt64.size]; omega
  | ofVariable origin =>
      obtain hleaf | ⟨x, hleaf, hfar, hx⟩ := leafOfText_toString d
      · rw [hleaf]
        exact takeNatural_integer origin
      · -- Beyond 64 bits the number is too large for a word, or it is zero.
        have htake : takeNatural (.leaf origin (.float x)) = .ok x.round.toNat64 := rfl
        obtain ⟨hlarge, hnegative⟩ := Binary64.toNat64_round_of_ofRat hx
        rw [hleaf, htake, Except.ok.injEq]
        rcases hfar with hfar | hfar
        · have hzero := hnegative (by omega)
          exact iff_of_false (by omega) (by omega)
        · have hbound := hlarge hfar
          exact iff_of_false (by omega) (by omega)

/-! ## Integers that are given -/

/-- How an integer is given for the resolution: its digits by a variable, or without one by a
document, as an integer or as digits in quotes. -/
inductive Asks (d : Int) (file : Option File) (environment : Environment) : Prop where
  | byVariable {name : String} :
      Text.lowercase name = Field.dpi.variableName → (name, toString d) ∈ environment →
      Asks d file environment
  | byInteger {f : File} {entries : Toml.Entries} :
      Field.dpi.inEnvironment environment = none → file = some f →
      Toml.read f.text = some entries → Field.dpi.inDocument entries = some (.integer d) →
      Asks d file environment
  | byDigits {f : File} {entries : Toml.Entries} :
      Field.dpi.inEnvironment environment = none → file = some f →
      Toml.read f.text = some entries →
      Field.dpi.inDocument entries = some (.text (toString d)) →
      Asks d file environment

section

variable {file : Option File} {environment : Environment}

theorem Asks.exists_given (h : Asks d file environment) (hordinary : IsOrdinary file environment) :
    ∃ tree, Field.dpi.given file environment = some tree ∧ Holds d tree := by
  cases h with
  | byVariable hname hmem =>
      refine ⟨_, ?_, .ofVariable (some .environment)⟩
      rw [Field.given, Field.inEnvironment_of_mem hordinary.environment hname hmem]
      rfl
  | @byInteger f entries hnone hfile hread hentry =>
      refine ⟨_, ?_, .integer (some (.file f.path))⟩
      rw [Field.given, hnone, Field.inFile, hfile]
      simp only [Option.bind_eq_bind, Option.bind_some, hread, hentry]
      rfl
  | @byDigits f entries hnone hfile hread hentry =>
      refine ⟨_, ?_, .digits (some (.file f.path))⟩
      rw [Field.given, hnone, Field.inFile, hfile]
      simp only [Option.bind_eq_bind, Option.bind_some, hread, hentry]
      rfl

/-- What is read if an integer is given for the resolution: the integer, and the other fields. -/
theorem Asks.read_eq_ok_iff (h : Asks d file environment) (hordinary : IsOrdinary file environment)
    {s : Settings} :
    Settings.read file environment = .ok s ↔
      (s.chart.dpi.toNat : Int) = d ∧ s.validate = .ok () ∧
        ∀ f : Field, f ≠ .dpi → f.effective (f.given file environment) = .ok (f.get s) := by
  obtain ⟨tree, hgiven, hholds⟩ := h.exists_given hordinary
  have hdpi (hvalid : s.validate = .ok ()) :
      Field.dpi.effective (Field.dpi.given file environment) = .ok (Field.dpi.get s) ↔
        (s.chart.dpi.toNat : Int) = d := by
    have hne : s.chart.dpi ≠ 0 := ((validate_eq_ok_iff s).mp hvalid).1.pos.2
    rw [hgiven]
    exact hholds.takeWord_eq_ok_iff hne
  rw [Settings.read_eq_ok_iff hordinary]
  constructor
  · intro hread
    obtain ⟨hfields, hvalid⟩ := hread
    exact ⟨(hdpi hvalid).mp (hfields .dpi), hvalid, fun f _ => hfields f⟩
  · intro hread
    obtain ⟨hvalue, hvalid, hothers⟩ := hread
    refine ⟨?_, hvalid⟩
    intro f
    by_cases hf : f = .dpi
    · rw [hf]
      exact (hdpi hvalid).mpr hvalue
    · exact hothers f hf

end

/-! ## Documents -/

theorem read_resolution (h : -(2 ^ 63) ≤ d ∧ d < 2 ^ 63) :
    Toml.read (Toml.entryText "chart" "dpi" (toString d)) =
      some (Field.dpi.entry (.integer d)) := by
  obtain ⟨c, cs, hlist, hc⟩ := Toml.exists_cons_toString d
  refine Toml.read_entryText (Field.isBareKey_group .dpi) (Field.isBareKey_name .dpi) hlist hc ?_ rfl
  rw [Toml.readValue_toString _ d (Toml.isWordChar_lineEnd []), Toml.boundedInteger_eq, if_pos h]
  rfl

/-- An integer of more than 64 bits makes a text no document. -/
theorem read_resolution_eq_none (h : ¬(-(2 ^ 63) ≤ d ∧ d < 2 ^ 63)) (tail : String) :
    Toml.read (Toml.entryText "chart" "dpi" (toString d) ++ tail) = none := by
  obtain ⟨c, cs, hlist, hc⟩ := Toml.exists_cons_toString d
  refine Toml.read_entryText_eq_none (Field.isBareKey_group .dpi) (Field.isBareKey_name .dpi) hlist
    hc tail ?_
  rw [Toml.readValue_toString _ d (Toml.isWordChar_lineEnd _), Toml.boundedInteger_eq, if_neg h]
  rfl

/-! ## Main result -/

/-- A machine on which an integer is given for the resolution, in settings that are in order. -/
structure Asking (d : Int) (path : String) (machine : Machine) : Prop where
  ordinary : IsOrdinary ((findSettings path : StateM Machine _) machine).1 machine.environment
  asks : Asks d ((findSettings path : StateM Machine _) machine).1 machine.environment

/-- On two machines the same is taken for all fields but the resolution. -/
def OthersAlike (path : String) (machine : Machine) (path' : String) (machine' : Machine) : Prop :=
  ∀ f : Field, f ≠ .dpi → ∀ v : f.Value,
    f.effective (f.given ((findSettings path : StateM Machine _) machine).1 machine.environment) =
        .ok v ↔
      f.effective (f.given ((findSettings path' : StateM Machine _) machine').1
        machine'.environment) = .ok v

/-- The resolution in settings that have been read is the integer that is given for it; so one that
is no positive number of 32 bits makes reading fail. It does not matter in which way an integer is
given, if all else is the same. A document can give every integer of 64 bits; one with another
integer is none, so that reading fails as well. -/
theorem resolution_as_asked (d : Int) :
    (∀ (path : String) (machine : Machine), Asking d path machine →
      (∀ s, ((readSettings path : StateM Machine _) machine).1 = .ok s →
        (s.chart.dpi.toNat : Int) = d) ∧
      (d ≤ 0 ∨ 2 ^ 32 ≤ d → ∃ e, ((readSettings path : StateM Machine _) machine).1 = .error e)) ∧
    (∀ (path : String) (machine : Machine) (path' : String) (machine' : Machine),
      Asking d path machine → Asking d path' machine' → OthersAlike path machine path' machine' →
        ∀ s, ((readSettings path : StateM Machine _) machine).1 = .ok s ↔
          ((readSettings path' : StateM Machine _) machine').1 = .ok s) ∧
    (-(2 ^ 63) ≤ d ∧ d < 2 ^ 63 →
      Toml.read (Toml.entryText "chart" "dpi" (toString d)) =
        some (Field.dpi.entry (.integer d))) ∧
    Toml.read (Toml.entryText "chart" "dpi" (Toml.quotedText (toString d))) =
      some (Field.dpi.entry (.text (toString d))) ∧
    (¬(-(2 ^ 63) ≤ d ∧ d < 2 ^ 63) → ∀ (path tail : String) (machine : Machine) (file : File),
      ((findSettings path : StateM Machine _) machine).1 = some file →
      file.text = Toml.entryText "chart" "dpi" (toString d) ++ tail →
        ((readSettings path : StateM Machine _) machine).1 = .error .malformed) := by
  have hread {path : String} {machine : Machine} (h : Asking d path machine) {s : Settings} :
      ((readSettings path : StateM Machine _) machine).1 = .ok s ↔
        (s.chart.dpi.toNat : Int) = d ∧ s.validate = .ok () ∧ ∀ f : Field, f ≠ .dpi →
          f.effective (f.given ((findSettings path : StateM Machine _) machine).1
            machine.environment) = .ok (f.get s) := by
    rw [readSettings_eq_read]
    exact h.asks.read_eq_ok_iff h.ordinary
  refine ⟨?_, ?_, read_resolution, ?_, ?_⟩
  · intro path machine hasking
    have hvalue {s : Settings} (h : ((readSettings path : StateM Machine _) machine).1 = .ok s) :=
      (hread hasking).mp h
    refine ⟨fun s h => (hvalue h).1, ?_⟩
    intro hfar
    cases hresult : ((readSettings path : StateM Machine _) machine).1 with
    | error e => exact ⟨e, rfl⟩
    | ok s =>
        obtain ⟨hdpi, hvalid, _⟩ := hvalue hresult
        have hne : s.chart.dpi ≠ 0 := ((validate_eq_ok_iff s).mp hvalid).1.pos.2
        have hpos : s.chart.dpi.toNat ≠ 0 := fun h => hne (UInt32.toNat_inj.mp h)
        have hsize : s.chart.dpi.toNat < 2 ^ 32 := s.chart.dpi.toNat_lt
        omega
  · intro path machine path' machine' hasking hasking' halike s
    rw [hread hasking, hread hasking']
    exact and_congr_right fun _ => and_congr_right fun _ =>
      forall_congr' fun f => imp_congr_right fun hf => halike f hf _
  · exact Toml.read_entryText_text (Field.isBareKey_group .dpi) (Field.isBareKey_name .dpi) _
  · intro hfar path tail machine file hfile htext
    have hnone : Toml.read file.text = none := by
      rw [htext]
      exact read_resolution_eq_none hfar tail
    rw [readSettings_eq_read, hfile, Settings.read, sourceOfFile, hnone]
    rfl

theorem firstFile_of_disk {a b : Machine} (h : b.disk = a.disk) (paths : List String) :
    ((firstFile paths : StateM Machine _) b).1 = ((firstFile paths : StateM Machine _) a).1 := by
  have hread (path : String) (machine : Machine) : (Host.readFile path : StateM Machine _) machine =
      (machine.disk.read path, machine) := rfl
  induction paths with
  | nil => rfl
  | cons path paths ih =>
      rw [firstFile, bind_apply, bind_apply, hread, hread, h]
      cases a.disk.read path with
      | ok bytes => rfl
      | error failure => exact ih

theorem findSettings_of_disk {a b : Machine} (h : b.disk = a.disk) (path : String) :
    ((findSettings path : StateM Machine _) b).1 = ((findSettings path : StateM Machine _) a).1 := by
  have hhere (machine : Machine) : (Host.workingDirectory : StateM Machine String) machine =
      (pathOf machine.disk.here, machine) := rfl
  simp only [findSettings, bind_apply, hhere, h, firstFile_of_disk h]
  generalize ((firstFile _ : StateM Machine _) a).1 = found
  cases found with
  | none => rfl
  | some found =>
      dsimp only
      cases Text.decode found.2 <;> rfl

/-- The machine with a document for settings, and with a variable for a resolution that would be
fifty if it were cut to 32 bits. -/
def oversized : Machine :=
  { overridden with environment := [("REHASHPLOT_CHART__DPI", "4294967346")] }

theorem asking_overridden : Asking 50 settingsPath overridden := by
  have hname : Text.lowercase "REHASHPLOT_CHART__DPI" = Field.dpi.variableName := by decide
  exact ⟨isOrdinary_overridden, .byVariable hname (by decide)⟩

theorem asking_oversized : Asking 4294967346 settingsPath oversized := by
  have hname : Text.lowercase "REHASHPLOT_CHART__DPI" = Field.dpi.variableName := by decide
  have hdisk : oversized.disk = overridden.disk := rfl
  have hfound : ((findSettings settingsPath : StateM Machine _) oversized).1 =
      some ⟨"rehashplot.toml", noteText⟩ :=
    (findSettings_of_disk hdisk settingsPath).trans findSettings_overridden
  refine ⟨⟨?_, isOrderly_singleton _ hname⟩, .byVariable hname List.mem_cons_self⟩
  rw [hfound]
  intro f hf
  cases hf
  exact ⟨noteEntries, read_noteText, isPlain_noteEntries⟩

theorem oversized_refused :
    Asking 50 settingsPath overridden ∧
      (∀ s, ((readSettings settingsPath : StateM Machine _) overridden).1 = .ok s →
        (s.chart.dpi.toNat : Int) = 50) ∧
      Asking 4294967346 settingsPath oversized ∧
      ∃ e, ((readSettings settingsPath : StateM Machine _) oversized).1 = .error e :=
  ⟨asking_overridden, ((resolution_as_asked 50).1 _ _ asking_overridden).1, asking_oversized,
    ((resolution_as_asked 4294967346).1 _ _ asking_oversized).2 (by decide)⟩

end RehashChart.Settings
