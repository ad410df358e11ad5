import RehashChart.Settings.Source

/-! # What is in a tree

A key has in the end what was laid there, one value over the other, and every other key has what it
had. Along a way of names it is the same at each step.
-/

namespace RehashChart.Settings

def valuesFor {α : Type} (name : String) (entries : List (String × α)) : List α :=
  (entries.filter fun e => Text.lowercase e.1 = name).map (·.2)

section

variable {α : Type} {name key : String} {entries : List (String × α)}

theorem valuesFor_cons_of_eq (h : Text.lowercase key = name) (value : α) :
    valuesFor name ((key, value) :: entries) = value :: valuesFor name entries := by
  simp [valuesFor, h]

theorem valuesFor_cons_of_ne (h : Text.lowercase key ≠ name) (value : α) :
    valuesFor name ((key, value) :: entries) = valuesFor name entries := by
  simp [valuesFor, h]

end

theorem entriesOf_eq_map (origin : Origin) (entries : Toml.Entries) :
    entriesOf origin entries = entries.map fun e => (e.1, treeOf origin e.2) := by
  induction entries with
  | nil => rw [entriesOf, List.map_nil]
  | cons e entries ih => rw [entriesOf, ih, List.map_cons]

theorem valuesFor_entriesOf (name : String) (origin : Origin) (entries : Toml.Entries) :
    valuesFor name (entriesOf origin entries) = (valuesFor name entries).map (treeOf origin) := by
  rw [entriesOf_eq_map]
  induction entries with
  | nil => rfl
  | cons e entries ih =>
      obtain ⟨key, value⟩ := e
      by_cases h : Text.lowercase key = name
      · rw [List.map_cons, valuesFor_cons_of_eq h, valuesFor_cons_of_eq h, ih, List.map_cons]
      · rw [List.map_cons, valuesFor_cons_of_ne h, valuesFor_cons_of_ne h, ih]

namespace Tree

variable {tree value : Tree} {name : String}

def IsTable (tree : Tree) : Prop := ∃ origin entries, tree = table origin entries

theorem isTable_put (tree : Tree) (key : String) (value : Tree) : (tree.put key value).IsTable := by
  cases tree <;> exact ⟨_, _, rfl⟩

theorem get?_put (tree : Tree) (key other : String) (value : Tree) :
    (tree.put key value).get? other = if key = other then some value else tree.get? other := by
  cases tree with
  | table origin entries => exact Keyed.get?_put key other value entries
  | leaf origin leaf => simp [put, get?, Keyed.get?]
  | list origin items => simp [put, get?, Keyed.get?]

theorem get?_getD (existing : Option Tree) (name : String) :
    (existing.getD empty).get? name = existing.bind (·.get? name) := by
  cases existing <;> rfl

/-- Values that are laid one over the other, the first of them over what was there. -/
def laidInTurn (existing : Option Tree) (values : List Tree) : Option Tree :=
  values.foldl (fun below value => some (value.laidOver below)) existing

theorem get?_overlay (entries : List (String × Tree)) (tree : Tree) (name : String) :
    (overlay entries tree).get? name = laidInTurn (tree.get? name) (valuesFor name entries) := by
  induction entries generalizing tree with
  | nil => rw [overlay]; rfl
  | cons e entries ih =>
      obtain ⟨key, value⟩ := e
      rw [overlay, ih, get?_put]
      by_cases h : Text.lowercase key = name
      · rw [if_pos h, valuesFor_cons_of_eq h, h]
        rfl
      · rw [if_neg h, valuesFor_cons_of_ne h]

theorem isTable_overlay (entries : List (String × Tree)) (h : tree.IsTable) :
    (overlay entries tree).IsTable := by
  induction entries generalizing tree with
  | nil =>
      rw [overlay]
      exact h
  | cons e entries ih =>
      rw [overlay]
      exact ih (isTable_put _ _ _)

theorem laidOver_table (origin : Option Origin) (entries : List (String × Tree)) :
    (table origin entries).laidOver none = overlay entries empty := by
  rw [laidOver]
  rfl

theorem isTable_laidOver_iff : (value.laidOver none).IsTable ↔ value.IsTable := by
  cases value with
  | table origin entries =>
      rw [laidOver_table]
      exact iff_of_true (isTable_overlay entries ⟨_, _, rfl⟩) ⟨_, _, rfl⟩
  | leaf origin leaf => simp [laidOver]
  | list origin items => simp [laidOver]

theorem laidOver_of_not_isTable (h : ¬value.IsTable) (existing : Option Tree) :
    value.laidOver existing = value := by
  cases value with
  | table origin entries => exact absurd ⟨_, _, rfl⟩ h
  | leaf origin leaf => simp [laidOver]
  | list origin items => simp [laidOver]

/-! ## Ways of names -/

theorem place_cons (value : Tree) (name : String) (path : List Step) (existing : Option Tree) :
    place value (.key name :: path) existing =
      (place value path (existing.bind (·.get? (Text.lowercase name)))).map fun inner =>
        (existing.getD empty).put (Text.lowercase name) inner := by
  rw [place, get?_getD]

theorem exists_place (value : Tree) (names : List String) (existing : Option Tree) :
    ∃ placed, place value (names.map .key) existing = some placed := by
  induction names generalizing existing with
  | nil => exact ⟨_, by rw [List.map_nil, place]⟩
  | cons name names ih =>
      obtain ⟨inner, hinner⟩ := ih (existing.bind (·.get? (Text.lowercase name)))
      exact ⟨_, by rw [List.map_cons, place_cons, hinner, Option.map_some]⟩

theorem place_key (value : Tree) (name : String) (tree : Tree) :
    place value [.key name] (some tree) =
      some (tree.put (Text.lowercase name) (value.laidOver (tree.get? (Text.lowercase name)))) := by
  rw [place_cons, place]
  rfl

/-- A way of two names or more leads into a table below the first one, and changes what the second
one has there. -/
theorem place_key_key (value : Tree) (first second : String) (names : List String) (tree : Tree) :
    ∃ inner, place value (.key first :: .key second :: names.map .key) (some tree) =
      some (tree.put (Text.lowercase first)
        (((tree.get? (Text.lowercase first)).getD empty).put (Text.lowercase second) inner)) := by
  obtain ⟨inner, hinner⟩ := exists_place value names
    ((tree.get? (Text.lowercase first)).bind (·.get? (Text.lowercase second)))
  refine ⟨inner, ?_⟩
  rw [place_cons, Option.bind_some, place_cons, hinner, Option.map_some, Option.map_some]
  rfl

end Tree

theorem Source.layer_of_plain {source : Source}
    (h : ∀ e ∈ source, KeyPath.ofKey e.1 = [.key e.1]) (tree : Tree) :
    source.layer tree = some (Tree.overlay source tree) := by
  induction source generalizing tree with
  | nil => rw [Tree.overlay]; rfl
  | cons e source ih =>
      obtain ⟨key, value⟩ := e
      obtain ⟨hkey, hsource⟩ := List.forall_mem_cons.mp h
      have hnext := ih hsource
      unfold Source.layer at hnext ⊢
      dsimp only at hkey
      rw [List.foldlM_cons]
      dsimp only
      rw [hkey, Tree.place_key, Tree.overlay]
      exact hnext _

end RehashChart.Settings
