import RehashChart.Proofs.Settings.Entries

/-! # Texts from a file and from a variable

The text that a file has for a setting is taken as it stands. That of a variable is read as a
boolean or a number first; if it is one, the setting becomes the text in which this boolean or
number is printed.
-/

namespace RehashChart.Settings

inductive TextField where
  | input
  | output
  | level
  | file
  deriving DecidableEq

/-- The text that a setting becomes by a variable with a text. -/
def reprinted (text : String) : String := (leafOfText text).asText.getD text

namespace TextField

def field : TextField → Field
  | input => .input
  | output => .output
  | level => .level
  | file => .file

def settings (f : TextField) (text : String) : Settings :=
  match f with
  | input => { Settings.default with paths := { Paths.default with input := text } }
  | output => { Settings.default with paths := { Paths.default with output := text } }
  | level => { Settings.default with log := { LogSettings.default with level := text } }
  | file => { Settings.default with log := { LogSettings.default with file := text } }

def document (f : TextField) (text : String) : String :=
  Toml.entryText f.field.group f.field.name (Toml.quotedText text)

theorem read_document (f : TextField) (text : String) :
    Toml.read (f.document text) = some (f.field.entry (.text text)) :=
  Toml.read_entryText_text f.field.isBareKey_group f.field.isBareKey_name text

theorem settings_inj {f : TextField} {s t : String} : f.settings s = f.settings t ↔ s = t := by
  constructor
  · intro h
    cases f with
    | input => exact congrArg (·.paths.input) h
    | output => exact congrArg (·.paths.output) h
    | level => exact congrArg (·.log.level) h
    | file => exact congrArg (·.log.file) h
  · exact congrArg f.settings

theorem get_settings_of_ne {f : TextField} {g : Field} (h : f.field ≠ g) (text : String) :
    g.get (f.settings text) = g.get .default := by
  cases f <;> cases g <;> first | rfl | exact absurd rfl h

theorem effective_settings {f : TextField} {tree : Tree} {text : String}
    (h : takeText tree = .ok text) :
    f.field.effective (some tree) = .ok (f.field.get (f.settings text)) := by
  cases f <;> exact h

variable {file : Option File} {environment : Environment}

theorem read_eq_settings {f : TextField} {tree : Tree} {text : String}
    (hordinary : IsOrdinary file environment)
    (hgiven : ∀ g : Field, g.given file environment = if f.field = g then some tree else none)
    (htake : takeText tree = .ok text) :
    Settings.read file environment = .ok (f.settings text) := by
  refine (read_eq_ok_iff hordinary).mpr ⟨?_, ?_⟩
  · intro g
    rw [hgiven]
    by_cases hfg : f.field = g
    · rw [if_pos hfg, ← hfg]
      exact effective_settings htake
    · rw [if_neg hfg, get_settings_of_ne hfg]
      rfl
  · have hchart : (f.settings text).validate = Settings.default.validate := by cases f <;> rfl
    rw [hchart, validate_default]

theorem takeText_leafOfText (origin : Option Origin) (text : String) :
    takeText (.leaf origin (leafOfText text)) = .ok (reprinted text) := by
  have hmissing : leafOfText text ≠ .missing := by
    unfold leafOfText
    dsimp only
    split_ifs
    · exact Leaf.noConfusion
    · exact Leaf.noConfusion
    · cases Text.readInt64 text.toList with
      | some n => exact Leaf.noConfusion
      | none => cases Binary64.read text.toList <;> exact Leaf.noConfusion
  unfold reprinted
  cases hleaf : leafOfText text with
  | missing => exact absurd hleaf hmissing
  | boolean b => rfl
  | integer n => rfl
  | float x => rfl
  | text s => rfl

theorem read_variable (f : TextField) {name text : String}
    (hname : Text.lowercase name = f.field.variableName)
    (honly : forSettings environment = [(name, text)]) :
    Settings.read none environment = .ok (f.settings (reprinted text)) := by
  obtain ⟨hordinary, hgiven⟩ := given_variable hname honly
  exact read_eq_settings hordinary hgiven (takeText_leafOfText _ text)

theorem read_file (f : TextField) {file : File} {text : String}
    (hread : Toml.read file.text = some (f.field.entry (.text text)))
    (hnone : forSettings environment = []) :
    Settings.read (some file) environment = .ok (f.settings text) := by
  obtain ⟨hordinary, hgiven⟩ := given_entry hread hnone
  exact read_eq_settings hordinary hgiven rfl

end TextField

theorem reprinted_of_neither {text : String} (htrue : Text.lowercase text ≠ "true")
    (hfalse : Text.lowercase text ≠ "false") (hinteger : Text.readInt64 text.toList = none)
    (hnumber : Binary64.read text.toList = none) : reprinted text = text := by
  simp [reprinted, leafOfText, htrue, hfalse, hinteger, hnumber, Leaf.asText]

/-! ## Main result -/

/-- What a text becomes as the value of the only variable for settings, and as the only entry of a
document, which there is for every text. They become the same just if the text is printed as it
stands; one that is no boolean and no number is. -/
theorem text_by_source (f : TextField) (text : String) :
    (∀ (environment : Environment) (name : String),
      Text.lowercase name = f.field.variableName → forSettings environment = [(name, text)] →
        Settings.read none environment = .ok (f.settings (reprinted text))) ∧
    (∀ (file : File) (environment : Environment),
      Toml.read file.text = some (f.field.entry (.text text)) → forSettings environment = [] →
        Settings.read (some file) environment = .ok (f.settings text)) ∧
    Toml.read (f.document text) = some (f.field.entry (.text text)) ∧
    (f.settings (reprinted text) = f.settings text ↔ reprinted text = text) ∧
    (Text.lowercase text ≠ "true" → Text.lowercase text ≠ "false" →
      Text.readInt64 text.toList = none → Binary64.read text.toList = none →
        reprinted text = text) :=
  ⟨fun _ _ hname honly => f.read_variable hname honly,
    fun _ _ hread hnone => f.read_file hread hnone, f.read_document text,
    TextField.settings_inj, reprinted_of_neither⟩

theorem chartPath_by_source :
    Settings.read none [("HOME", "/root"), ("REHASHPLOT_PATHS__OUTPUT", "out/chart.png")] =
        .ok (TextField.output.settings "out/chart.png") ∧
      Settings.read (some ⟨"rehashplot.toml", TextField.output.document "out/chart.png"⟩)
        [("HOME", "/root")] = .ok (TextField.output.settings "out/chart.png") := by
  obtain ⟨hvariable, hfile, hdocument, _, hsame⟩ := text_by_source .output "out/chart.png"
  have hprinted : reprinted "out/chart.png" = "out/chart.png" :=
    hsame (by decide) (by decide) (by decide) (by decide +kernel)
  have hread := hvariable [("HOME", "/root"), ("REHASHPLOT_PATHS__OUTPUT", "out/chart.png")]
    "REHASHPLOT_PATHS__OUTPUT" (by decide) (by decide)
  rw [hprinted] at hread
  exact ⟨hread, hfile _ _ hdocument (by decide)⟩

theorem digits_by_source :
    Settings.read none [("REHASHPLOT_PATHS__OUTPUT", "007")] =
        .ok (TextField.output.settings "7") ∧
      Settings.read (some ⟨"rehashplot.toml", TextField.output.document "007"⟩) [] =
        .ok (TextField.output.settings "007") ∧
      TextField.output.settings "7" ≠ TextField.output.settings "007" := by
  have hprinted : reprinted "007" = "7" := by decide +kernel
  have honly : forSettings [("REHASHPLOT_PATHS__OUTPUT", "007")] =
      [("REHASHPLOT_PATHS__OUTPUT", "007")] := by decide
  have hread := TextField.read_variable .output (by decide) honly
  rw [hprinted] at hread
  refine ⟨hread, TextField.read_file .output (TextField.read_document .output "007") rfl, ?_⟩
  intro hsame
  exact absurd (TextField.settings_inj.mp hsame) (by decide)

end RehashChart.Settings
