import RehashChart.Proofs.Settings.Precedence
import RehashChart.Proofs.Toml.Written

/-! # Settings from a single entry

One setting is given alone, by a document with nothing else in it or by the only variable that is
for settings: all others keep their defaults.
-/

namespace RehashChart.Settings

/-! ## Documents -/

namespace Field

def entry (f : Field) (value : Toml.Value) : Toml.Entries := [(f.group, .table [(f.name, value)])]

theorem lowercase_group (f : Field) : Text.lowercase f.group = f.group := by cases f <;> decide

theorem lowercase_name (f : Field) : Text.lowercase f.name = f.name := by cases f <;> decide

theorem isBareKey_group (f : Field) : Toml.IsBareKey f.group := by cases f <;> decide

theorem isBareKey_name (f : Field) : Toml.IsBareKey f.name := by cases f <;> decide

theorem valuesFor_entry (f g : Field) (value : Toml.Value) :
    valuesFor g.group (f.entry value) =
      if f.group = g.group then [.table [(f.name, value)]] else [] := by
  by_cases hgroup : f.group = g.group
  · rw [if_pos hgroup]
    exact valuesFor_cons_of_eq (f.lowercase_group.trans hgroup) _
  · rw [if_neg hgroup]
    exact valuesFor_cons_of_ne (fun h => hgroup (f.lowercase_group.symm.trans h)) _

theorem valuesFor_singleton (f g : Field) (value : Toml.Value) :
    valuesFor g.name [(f.name, value)] = if f = g then [value] else [] := by
  by_cases hfg : f = g
  · rw [if_pos hfg, ← hfg]
    exact valuesFor_cons_of_eq f.lowercase_name value
  · rw [if_neg hfg]
    exact valuesFor_cons_of_ne (fun h => hfg (name_inj (f.lowercase_name.symm.trans h))) value

theorem inDocument_entry (f g : Field) (value : Toml.Value) :
    g.inDocument (f.entry value) = if f = g then some value else none := by
  rw [inDocument, valuesFor_entry]
  by_cases hgroup : f.group = g.group
  · rw [if_pos hgroup]
    dsimp only
    rw [valuesFor_singleton]
    by_cases hfg : f = g
    · simp [hfg]
    · simp [hfg]
  · have hfg : f ≠ g := fun h => hgroup (congrArg group h)
    simp [hgroup, hfg]

theorem isPlain_entry (f : Field) (value : Toml.Value) : IsPlain (f.entry value) := by
  constructor
  · intro e he
    cases List.mem_singleton.mp he
    have hbracket : '[' ∉ f.group.toList := by cases f <;> decide
    have hpoint : '.' ∉ f.group.toList := by cases f <;> decide
    exact KeyPath.ofKey_eq_self hbracket hpoint
  · intro g
    rw [valuesFor_entry]
    by_cases hgroup : f.group = g.group
    · refine .inr ⟨_, if_pos hgroup, ?_⟩
      rw [valuesFor_singleton]
      split
      · exact Nat.le_refl 1
      · exact Nat.zero_le 1
    · exact .inl (if_neg hgroup)

end Field

/-! ## Variables -/

/-- The variables with a key: those that are for settings. -/
def forSettings (environment : Environment) : Environment :=
  environment.filter fun v => (keyOfVariable v.1).isSome

variable {environment : Environment}

theorem isSome_keyOfVariable {name : String} {f : Field}
    (h : Text.lowercase name = f.variableName) : (keyOfVariable name).isSome = true := by
  rw [keyOfVariable_of_field h]
  rfl

theorem isOrderly_of_forSettings (h : IsOrderly (forSettings environment)) :
    IsOrderly environment := by
  constructor
  · intro v hv
    cases hkey : keyOfVariable v.1 with
    | none => exact .inr fun _ h => nomatch h
    | some key =>
        have hmem : v ∈ forSettings environment := List.mem_filter.mpr ⟨hv, by rw [hkey]; rfl⟩
        rw [← hkey]
        exact h.names v hmem
  · refine (List.pairwise_filter.mp h.once).imp ?_
    intro v w hapart f hv hw
    exact hapart (isSome_keyOfVariable hv) (isSome_keyOfVariable hw) f hv hw

theorem isOrderly_nil : IsOrderly [] := ⟨fun _ hv => absurd hv List.not_mem_nil, .nil⟩

theorem isOrderly_singleton {name : String} {f : Field} (text : String)
    (h : Text.lowercase name = f.variableName) : IsOrderly [(name, text)] := by
  constructor
  · intro v hv
    cases List.mem_singleton.mp hv
    exact .inl ⟨f, h⟩
  · exact List.pairwise_singleton _ _

theorem Field.inEnvironment_forSettings (f : Field) (environment : Environment) :
    f.inEnvironment (forSettings environment) = f.inEnvironment environment := by
  unfold inEnvironment forSettings
  rw [List.find?_filter]
  congr 2
  funext v
  by_cases hname : Text.lowercase v.1 = f.variableName
  · simp [hname, isSome_keyOfVariable hname]
  · simp [hname]

theorem Field.inEnvironment_singleton {name : String} {f : Field} (text : String)
    (h : Text.lowercase name = f.variableName) (g : Field) :
    g.inEnvironment [(name, text)] =
      if f = g then some (.leaf (some .environment) (leafOfText text)) else none := by
  unfold inEnvironment
  by_cases hfg : f = g
  · rw [List.find?_cons_of_pos (by simp [h, hfg]), if_pos hfg]
    rfl
  · have hname : Text.lowercase name ≠ g.variableName := fun hg =>
      hfg (variableName_inj (h.symm.trans hg))
    rw [List.find?_cons_of_neg (by simpa using hname), if_neg hfg]
    rfl

/-! ## Settings -/

theorem validate_default : Settings.default.validate = .ok () := by decide +kernel

theorem given_variable {name text : String} {f : Field} (h : Text.lowercase name = f.variableName)
    (honly : forSettings environment = [(name, text)]) :
    IsOrdinary none environment ∧ ∀ g : Field, g.given none environment =
      if f = g then some (.leaf (some .environment) (leafOfText text)) else none := by
  have horderly : IsOrderly environment :=
    isOrderly_of_forSettings (honly ▸ isOrderly_singleton text h)
  refine ⟨⟨(fun _ hfile => nomatch hfile), horderly⟩, ?_⟩
  intro g
  rw [Field.given, ← Field.inEnvironment_forSettings, honly, Field.inEnvironment_singleton text h]
  exact Option.or_none

theorem given_entry {file : File} {f : Field} {value : Toml.Value}
    (hread : Toml.read file.text = some (f.entry value)) (hnone : forSettings environment = []) :
    IsOrdinary (some file) environment ∧ ∀ g : Field, g.given (some file) environment =
      if f = g then some (treeOf (.file file.path) value) else none := by
  have horderly : IsOrderly environment := isOrderly_of_forSettings (hnone ▸ isOrderly_nil)
  refine ⟨⟨?_, horderly⟩, ?_⟩
  · intro other hother
    cases hother
    exact ⟨_, hread, f.isPlain_entry value⟩
  · intro g
    have henvironment : g.inEnvironment environment = none := by
      rw [← Field.inEnvironment_forSettings, hnone]
      rfl
    rw [Field.given, henvironment, Option.none_or, Field.inFile]
    simp only [Option.bind_eq_bind, Option.bind_some, hread, Field.inDocument_entry]
    split <;> rfl

end RehashChart.Settings
