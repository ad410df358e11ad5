import RehashChart.Proofs.Run.Outcome
import RehashChart.Proofs.Settings.Conversions

/-! # Which source prevails

A plain document and orderly variables are merged into a tree that holds for each setting what its
variable says, or else what the document says.
-/

namespace RehashChart.Settings

variable {tree : Tree}

/-! ## Documents -/

/-- A document in which sections are tables: no key of the outermost level leads further, no section
and no field is given twice in letters of different case. All else in it is arbitrary. -/
structure IsPlain (entries : Toml.Entries) : Prop where
  keys : ∀ e ∈ entries, KeyPath.ofKey e.1 = [.key e.1]
  sections : ∀ f : Field, valuesFor f.group entries = [] ∨
    ∃ fields, valuesFor f.group entries = [.table fields] ∧ (valuesFor f.name fields).length ≤ 1

theorem laidInTurn_of_length {values : List Tree} (h : values.length ≤ 1) :
    Tree.laidInTurn none values = values.head?.map (·.laidOver none) := by
  cases values with
  | nil => rfl
  | cons value values =>
      cases List.length_eq_zero_iff.mp (Nat.le_zero.mp (Nat.le_of_succ_le_succ h))
      rfl

theorem layer_ofDocument {entries : Toml.Entries} (path : String) (h : IsPlain entries) :
    ∃ filled, (Source.ofDocument path entries).layer Tree.empty = some filled ∧ Sectioned filled ∧
      ∀ f : Field, f.inTree filled =
        (f.inDocument entries).map fun value => (treeOf (.file path) value).laidOver none := by
  have hkeys : ∀ e ∈ Source.ofDocument path entries, KeyPath.ofKey e.1 = [.key e.1] := by
    intro e he
    rw [Source.ofDocument, entriesOf_eq_map] at he
    obtain ⟨entry, hentry, rfl⟩ := List.mem_map.mp he
    exact h.keys entry hentry
  have hget (f : Field) : (Tree.overlay (Source.ofDocument path entries) Tree.empty).get? f.group =
      Tree.laidInTurn none ((valuesFor f.group entries).map (treeOf (.file path))) := by
    rw [Tree.get?_overlay, Source.ofDocument, valuesFor_entriesOf]
    rfl
  refine ⟨_, Source.layer_of_plain hkeys Tree.empty, ?_, ?_⟩
  · intro f s hs
    rw [hget] at hs
    cases h.sections f with
    | inl hnone =>
        rw [hnone] at hs
        cases hs
    | inr hsome =>
        obtain ⟨fields, hfields, _⟩ := hsome
        rw [hfields, List.map_cons, treeOf] at hs
        cases hs
        exact Tree.isTable_laidOver_iff.mpr ⟨_, _, rfl⟩
  · intro f
    rw [Field.inTree, hget, Field.inDocument]
    cases h.sections f with
    | inl hnone =>
        rw [hnone]
        rfl
    | inr hsome =>
        obtain ⟨fields, hfields, hlength⟩ := hsome
        have hsection : Tree.laidInTurn none
            ([Toml.Value.table fields].map (treeOf (.file path))) =
              some (Tree.overlay (entriesOf (.file path) fields) Tree.empty) := by
          rw [List.map_cons, treeOf, ← Tree.laidOver_table]
          rfl
        have hvalues : ((valuesFor f.name fields).map (treeOf (.file path))).length ≤ 1 := by
          rw [List.length_map]
          exact hlength
        rw [hfields, hsection, Option.bind_some, Tree.get?_overlay, valuesFor_entriesOf]
        refine (laidInTurn_of_length hvalues).trans ?_
        rw [List.head?_map, Option.map_map]
        rfl

/-! ## The environment -/

/-- A key of an environment variable that is no section's and no field's, and that does not lead
below a field. -/
structure IsStray (key : String) : Prop where
  bracket : '[' ∉ key.toList
  group : ∀ f : Field, Text.lowercase key ≠ f.group
  field : ∀ f : Field, ¬[f.group, f.name] <+: (Text.splitText '.' key).map Text.lowercase

theorem place_of_isStray {key : String} (value : Tree) (hkey : IsStray key) (h : Sectioned tree) :
    ∃ placed, value.place (KeyPath.ofKey key) (some tree) = some placed ∧ Sectioned placed ∧
      ∀ f : Field, f.inTree placed = f.inTree tree := by
  cases KeyPath.ofKey_cases hkey.bracket with
  | inl hself =>
      rw [hself, Tree.place_key]
      exact ⟨_, rfl, put_apart _ h hkey.group⟩
  | inr hnames =>
      obtain ⟨first, second, names, hsplit, hpath⟩ := hnames
      obtain ⟨inner, hplaced⟩ := Tree.place_key_key value first second names tree
      obtain ⟨hsectioned, hfields⟩ :=
        put_below (Text.lowercase first) (Text.lowercase second) inner h
      refine ⟨_, by rw [hpath, hplaced], hsectioned, ?_⟩
      intro f
      refine (hfields f).trans (if_neg ?_)
      intro hnames
      refine hkey.field f ⟨names.map Text.lowercase, ?_⟩
      rw [hsplit, ← hnames.1, ← hnames.2]
      rfl

theorem keyOfVariable_of_field {variableName : String} {f : Field}
    (h : Text.lowercase variableName = f.variableName) :
    keyOfVariable variableName = some (f.group ++ "." ++ f.name) := by
  unfold keyOfVariable
  rw [h]
  cases f <;> decide

theorem place_field (f : Field) (origin : Option Origin) (value : Leaf) (h : Sectioned tree) :
    ∃ placed, (Tree.leaf origin value).place (KeyPath.ofKey (f.group ++ "." ++ f.name))
        (some tree) = some placed ∧ Sectioned placed ∧
      ∀ g : Field, g.inTree placed = if f = g then some (.leaf origin value) else g.inTree tree := by
  have hpath : KeyPath.ofKey (f.group ++ "." ++ f.name) = [.key f.group, .key f.name] := by
    cases f <;> decide +kernel
  have hgroup : Text.lowercase f.group = f.group := by cases f <;> decide
  have hname : Text.lowercase f.name = f.name := by cases f <;> decide
  obtain ⟨hsectioned, hfields⟩ := put_below f.group f.name (.leaf origin value) h
  refine ⟨_, ?_, hsectioned, ?_⟩
  · rw [hpath, Tree.place_cons, Option.bind_some, hgroup, Tree.place_cons, hname, Tree.place,
      Tree.laidOver_of_not_isTable (by rintro ⟨_, _, h⟩; cases h)]
    rfl
  · intro g
    refine (hfields g).trans ?_
    by_cases hfg : f = g
    · rw [if_pos hfg, hfg, if_pos ⟨rfl, rfl⟩]
    · rw [if_neg hfg, if_neg fun hnames => hfg (Field.name_inj hnames.2)]

/-- Variables that each name a field, in letters of any case and no field twice, or have a key that
is stray. Variables that are not for settings have no key. -/
structure IsOrderly (environment : Environment) : Prop where
  names : ∀ v ∈ environment, (∃ f : Field, Text.lowercase v.1 = f.variableName) ∨
    ∀ key, keyOfVariable v.1 = some key → IsStray key
  once : environment.Pairwise fun v w =>
    ∀ f : Field, Text.lowercase v.1 = f.variableName → Text.lowercase w.1 ≠ f.variableName

theorem IsOrderly.tail {v : String × String} {environment : Environment}
    (h : IsOrderly (v :: environment)) : IsOrderly environment :=
  ⟨(List.forall_mem_cons.mp h.names).2, (List.pairwise_cons.mp h.once).2⟩

theorem Source.layer_cons (key : String) (value : Tree) (source : Source) (tree : Tree) :
    Source.layer ((key, value) :: source) tree =
      (value.place (KeyPath.ofKey key) (some tree)).bind source.layer := by
  unfold Source.layer
  rw [List.foldlM_cons]
  rfl

theorem ofEnvironment_cons (v : String × String) (environment : Environment) :
    Source.ofEnvironment (v :: environment) =
      match keyOfVariable v.1 with
      | some key => (key, .leaf (some .environment) (leafOfText v.2)) ::
          Source.ofEnvironment environment
      | none => Source.ofEnvironment environment := by
  obtain ⟨name, value⟩ := v
  unfold Source.ofEnvironment
  rw [List.filterMap_cons]
  dsimp only
  cases keyOfVariable name <;> rfl

/-- Each variable is laid over what was there, and the field that it names is in no later one. -/
theorem layer_ofEnvironment {environment : Environment} (henvironment : IsOrderly environment)
    (h : Sectioned tree) :
    ∃ filled, (Source.ofEnvironment environment).layer tree = some filled ∧ Sectioned filled ∧
      ∀ f : Field, f.inTree filled = (f.inEnvironment environment).or (f.inTree tree) := by
  -- each variable leaves tables where sections are, so the next one can be laid over them
  induction environment generalizing tree with
  | nil => exact ⟨tree, rfl, h, fun _ => rfl⟩
  | cons v environment ih =>
      have hskip {f : Field} (hne : Text.lowercase v.1 ≠ f.variableName) :
          f.inEnvironment (v :: environment) = f.inEnvironment environment := by
        rw [Field.inEnvironment, List.find?_cons_of_neg (by simpa using hne), Field.inEnvironment]
      rw [ofEnvironment_cons]
      by_cases hfield : ∃ f : Field, Text.lowercase v.1 = f.variableName
      · obtain ⟨f, hf⟩ := hfield
        obtain ⟨placed, hplaced, hsectioned, hfields⟩ :=
          place_field f (some .environment) (leafOfText v.2) h
        obtain ⟨filled, hfilled, hsections, hall⟩ := ih henvironment.tail hsectioned
        rw [keyOfVariable_of_field hf]
        refine ⟨filled, ?_, hsections, ?_⟩
        · dsimp only
          rw [Source.layer_cons, hplaced, Option.bind_some, hfilled]
        · intro g
          rw [hall, hfields]
          by_cases hfg : f = g
          · have honce := (List.pairwise_cons.mp henvironment.once).1
            have hlater : g.inEnvironment environment = none := by
              rw [Field.inEnvironment, List.find?_eq_none.mpr, Option.map_none]
              intro w hw
              simpa [hfg] using honce w hw f hf
            rw [if_pos hfg, hlater, Field.inEnvironment,
              List.find?_cons_of_pos (by simp [hf, hfg])]
            rfl
          · have hne : Text.lowercase v.1 ≠ g.variableName := by
              intro hg
              exact hfg (Field.variableName_inj (hf.symm.trans hg))
            rw [if_neg hfg, hskip hne]
      · have hother (g : Field) : g.inEnvironment (v :: environment) =
            g.inEnvironment environment := hskip fun hg => hfield ⟨g, hg⟩
        simp only [hother]
        cases hkey : keyOfVariable v.1 with
        | none => exact ih henvironment.tail h
        | some key =>
            have hstray : IsStray key :=
              ((List.forall_mem_cons.mp henvironment.names).1.resolve_left hfield) key hkey
            obtain ⟨placed, hplaced, hsectioned, hfields⟩ := place_of_isStray _ hstray h
            obtain ⟨filled, hfilled, hsections, hall⟩ := ih henvironment.tail hsectioned
            refine ⟨filled, ?_, hsections, ?_⟩
            · dsimp only
              rw [Source.layer_cons, hplaced, Option.bind_some, hfilled]
            · intro g
              rw [hall, hfields]

/-! ## Both together -/

theorem take_table_ne_ok (f : Field) (origin : Option Origin) (entries : List (String × Tree))
    (v : f.Value) : f.take (.table origin entries) ≠ .ok v := by
  intro h
  cases f <;> cases h

theorem take_laidOver_eq_ok_iff {value : Tree} {f : Field} {v : f.Value} :
    f.take (value.laidOver none) = .ok v ↔ f.take value = .ok v := by
  by_cases htable : value.IsTable
  · obtain ⟨origin, entries, hentries⟩ := Tree.isTable_laidOver_iff.mpr htable
    obtain ⟨origin', entries', rfl⟩ := htable
    rw [hentries]
    exact iff_of_false (take_table_ne_ok f _ _ v) (take_table_ne_ok f _ _ v)
  · rw [Tree.laidOver_of_not_isTable htable]

/-- The settings file, if there is one, is a plain document, and the environment is orderly. -/
structure IsOrdinary (file : Option File) (environment : Environment) : Prop where
  document : ∀ f, file = some f → ∃ entries, Toml.read f.text = some entries ∧ IsPlain entries
  environment : IsOrderly environment

variable {file : Option File} {environment : Environment}

theorem layer_sourceOfFile (h : IsOrdinary file environment) :
    ∃ source filled, sourceOfFile file = .ok source ∧ source.layer Tree.empty = some filled ∧
      Sectioned filled ∧ ∀ f : Field, f.inTree filled = (f.inFile file).map (·.laidOver none) := by
  cases file with
  | none => exact ⟨[], Tree.empty, rfl, rfl, sectioned_empty, fun _ => rfl⟩
  | some file =>
      obtain ⟨entries, hentries, hplain⟩ := h.document file rfl
      obtain ⟨filled, hfilled, hsectioned, hfields⟩ := layer_ofDocument file.path hplain
      refine ⟨_, filled, by rw [sourceOfFile, hentries], hfilled, hsectioned, ?_⟩
      intro f
      rw [hfields, Field.inFile]
      simp only [Option.bind_eq_bind, Option.bind_some, hentries]
      cases f.inDocument entries <;> rfl

theorem exists_merged (h : IsOrdinary file environment) :
    ∃ source merged, sourceOfFile file = .ok source ∧
      mergeSources [source, .ofEnvironment environment] = .ok merged ∧ Sectioned merged ∧
        ∀ f : Field, f.inTree merged =
          (f.inEnvironment environment).or ((f.inFile file).map (·.laidOver none)) := by
  obtain ⟨source, filled, hsource, hfilled, hsectioned, hfields⟩ := layer_sourceOfFile h
  obtain ⟨merged, hmerged, hsections, hall⟩ := layer_ofEnvironment h.environment hsectioned
  refine ⟨source, merged, hsource, ?_, hsections, fun f => by rw [hall, hfields]⟩
  have hboth : [source, .ofEnvironment environment].foldlM
      (fun tree (next : Source) => next.layer tree) Tree.empty = some merged := by
    rw [List.foldlM_cons, hfilled]
    simp [List.foldlM_cons, hmerged]
  rw [mergeSources, hboth]

theorem effective_merged_eq_ok_iff {f : Field} {prevailing given : Option Tree} {v : f.Value} :
    f.effective (prevailing.or (given.map (·.laidOver none))) = .ok v ↔
      f.effective (prevailing.or given) = .ok v := by
  cases prevailing with
  | some tree => exact Iff.rfl
  | none =>
      cases given with
      | none => exact Iff.rfl
      | some tree => exact take_laidOver_eq_ok_iff

theorem read_eq_ok_iff (h : IsOrdinary file environment) {s : Settings} :
    Settings.read file environment = .ok s ↔
      (∀ f : Field, f.effective (f.given file environment) = .ok (f.get s)) ∧
        s.validate = .ok () := by
  obtain ⟨source, merged, hsource, hmerged, hsectioned, hfields⟩ := exists_merged h
  have htree : ofTree merged = .ok s ↔
      ∀ f : Field, f.effective (f.given file environment) = .ok (f.get s) := by
    rw [ofTree_eq_ok_iff hsectioned]
    refine forall_congr' fun f => ?_
    rw [hfields]
    exact effective_merged_eq_ok_iff
  rw [← htree]
  unfold Settings.read ofSources
  simp only [hsource, hmerged, bind_eq_ok, Except.ok.injEq, exists_eq_left']
  constructor
  · intro hread
    obtain ⟨settings, hsettings, ⟨⟩, hvalid, hs⟩ := hread
    cases hs
    exact ⟨hsettings, mapError_eq_ok.mp hvalid⟩
  · intro hread
    exact ⟨s, hread.1, (), mapError_eq_ok.mpr hread.2, rfl⟩

theorem read_eq_error_iff (h : IsOrdinary file environment) :
    (∃ e, Settings.read file environment = .error e) ↔
      (∃ (f : Field) (tree : Tree) (fault : Mismatch),
        f.given file environment = some tree ∧ f.take tree = .error fault) ∨
      ∃ (s : Settings) (reason : Refusal),
        (∀ f : Field, f.effective (f.given file environment) = .ok (f.get s)) ∧
          s.validate = .error reason := by
  constructor
  · intro herror
    obtain ⟨e, herror⟩ := herror
    by_cases hall : ∀ f : Field, ∃ v, f.effective (f.given file environment) = .ok v
    · obtain ⟨s, hs⟩ := Field.exists_settings fun f => (hall f).choose
      have hfields (f : Field) : f.effective (f.given file environment) = .ok (f.get s) := by
        rw [hs]
        exact (hall f).choose_spec
      cases hvalid : s.validate with
      | ok _ =>
          rw [(read_eq_ok_iff h).mpr ⟨hfields, hvalid⟩] at herror
          cases herror
      | error reason => exact .inr ⟨s, reason, hfields, hvalid⟩
    · obtain ⟨f, hf⟩ := not_forall.mp hall
      left
      cases hgiven : f.given file environment with
      | none => exact absurd ⟨_, by rw [hgiven]; rfl⟩ hf
      | some tree =>
          cases htake : f.take tree with
          | ok v => exact absurd ⟨v, by rw [hgiven]; exact htake⟩ hf
          | error fault => exact ⟨f, tree, fault, hgiven, htake⟩
  · intro hfails
    cases hread : Settings.read file environment with
    | error e => exact ⟨e, rfl⟩
    | ok s =>
        obtain ⟨hfields, hvalid⟩ := (read_eq_ok_iff h).mp hread
        cases hfails with
        | inl hfault =>
            obtain ⟨f, tree, fault, hgiven, htake⟩ := hfault
            have hf := hfields f
            rw [hgiven] at hf
            cases htake.symm.trans hf
        | inr hrefused =>
            obtain ⟨t, reason, hfields', hrefused⟩ := hrefused
            have hsame : t = s := Field.eq_of_get fun f =>
              Except.ok.inj ((hfields' f).symm.trans (hfields f))
            rw [hsame, hvalid] at hrefused
            cases hrefused

/-! ## What fields become -/

theorem Field.inEnvironment_of_mem {f : Field} {name text : String}
    (horderly : IsOrderly environment) (hname : Text.lowercase name = f.variableName)
    (hmem : (name, text) ∈ environment) :
    f.inEnvironment environment = some (.leaf (some .environment) (leafOfText text)) := by
  unfold inEnvironment
  have hfind : environment.find? (fun v => Text.lowercase v.1 = f.variableName) =
      some (name, text) := by
    induction environment with
    | nil => exact absurd hmem List.not_mem_nil
    | cons v environment ih =>
        rcases List.mem_cons.mp hmem with rfl | htail
        · exact List.find?_cons_of_pos (by simpa using hname)
        · have hother : Text.lowercase v.1 ≠ f.variableName := fun hv =>
            (List.pairwise_cons.mp horderly.once).1 _ htail f hv hname
          rw [List.find?_cons_of_neg (by simpa using hother)]
          exact ih horderly.tail htail
  rw [hfind]
  rfl

namespace Field

def HasVariable (f : Field) (environment : Environment) : Prop :=
  ∃ v ∈ environment, Text.lowercase v.1 = f.variableName

def GivenBy (f : Field) (file : Option File) (value : Toml.Value) : Prop :=
  ∃ document entries, file = some document ∧ Toml.read document.text = some entries ∧
    f.inDocument entries = some value

def IsGiven (f : Field) (file : Option File) (environment : Environment) : Prop :=
  f.HasVariable environment ∨ ∃ value, f.GivenBy file value

/-- What a field becomes: what its variable means, or without one what the file's value means, or
its default if there is neither. -/
inductive Becomes (f : Field) (file : Option File) (environment : Environment) :
    f.Value → Prop where
  | byVariable {name text : String} {value : Leaf} {v : f.Value} :
      (name, text) ∈ environment → Text.lowercase name = f.variableName →
      Reads text value → f.Means value v → Becomes f file environment v
  | byFile {given : Toml.Value} {value : Leaf} {v : f.Value} :
      ¬f.HasVariable environment → f.GivenBy file given →
      Stands given value → f.Means value v → Becomes f file environment v
  | byDefault :
      ¬f.IsGiven file environment → Becomes f file environment (f.get .default)

variable {f : Field} {v : f.Value}

theorem inEnvironment_eq_none_iff :
    f.inEnvironment environment = none ↔ ¬f.HasVariable environment := by
  simp [inEnvironment, HasVariable, List.find?_eq_none]

theorem exists_variable {tree : Tree} (h : f.inEnvironment environment = some tree) :
    ∃ name text, (name, text) ∈ environment ∧ Text.lowercase name = f.variableName ∧
      tree = .leaf (some .environment) (leafOfText text) := by
  obtain ⟨⟨name, text⟩, hfound, rfl⟩ := Option.map_eq_some_iff.mp h
  have hname := List.find?_some hfound
  exact ⟨name, text, List.mem_of_find?_eq_some hfound, of_decide_eq_true hname, rfl⟩

theorem inFile_eq_some_iff {tree : Tree} :
    f.inFile file = some tree ↔ ∃ document entries value, file = some document ∧
      Toml.read document.text = some entries ∧ f.inDocument entries = some value ∧
        tree = treeOf (.file document.path) value := by
  simp only [inFile, Option.bind_eq_bind, Option.bind_eq_some_iff, Option.pure_def,
    Option.some.injEq]
  constructor
  · rintro ⟨document, hfile, entries, hread, value, hvalue, htree⟩
    exact ⟨document, entries, value, hfile, hread, hvalue, htree.symm⟩
  · rintro ⟨document, entries, value, hfile, hread, hvalue, htree⟩
    exact ⟨document, hfile, entries, hread, value, hvalue, htree.symm⟩

theorem inFile_eq_none_iff : f.inFile file = none ↔ ∀ value, ¬f.GivenBy file value := by
  rw [Option.eq_none_iff_forall_ne_some]
  constructor
  · rintro h value ⟨document, entries, hfile, hread, hvalue⟩
    exact h _ (inFile_eq_some_iff.mpr ⟨document, entries, value, hfile, hread, hvalue, rfl⟩)
  · intro h tree htree
    obtain ⟨document, entries, value, hfile, hread, hvalue, _⟩ := inFile_eq_some_iff.mp htree
    exact h value ⟨document, entries, hfile, hread, hvalue⟩

theorem becomes_iff_of_variable {tree : Tree} (horderly : IsOrderly environment)
    (hvariable : f.inEnvironment environment = some tree) :
    f.Becomes file environment v ↔ f.take tree = .ok v := by
  rw [take_eq_ok_iff]
  constructor
  · intro h
    cases h with
    | byVariable hmem hname hreads hmeans =>
        have htree := inEnvironment_of_mem horderly hname hmem
        rw [hvariable, leafOfText_eq_iff.mpr hreads] at htree
        exact ⟨_, _, Option.some.inj htree, hmeans⟩
    | byFile hnone _ _ _ =>
        rw [inEnvironment_eq_none_iff.mpr hnone] at hvariable
        cases hvariable
    | byDefault hnone =>
        rw [inEnvironment_eq_none_iff.mpr fun h => hnone (.inl h)] at hvariable
        cases hvariable
  · rintro ⟨origin, value, htree, hmeans⟩
    obtain ⟨name, text, hmem, hname, hleaf⟩ := exists_variable hvariable
    cases htree.symm.trans hleaf
    exact .byVariable hmem hname (leafOfText_eq_iff.mp rfl) hmeans

theorem becomes_iff_of_file {tree : Tree} (hvariable : f.inEnvironment environment = none)
    (hfile : f.inFile file = some tree) :
    f.Becomes file environment v ↔ f.take tree = .ok v := by
  have hnone := inEnvironment_eq_none_iff.mp hvariable
  rw [take_eq_ok_iff]
  constructor
  · intro h
    cases h with
    | byVariable hmem hname _ _ => exact absurd ⟨_, hmem, hname⟩ hnone
    | byFile _ hgiven hstands hmeans =>
        obtain ⟨document, entries, hsome, hread, hvalue⟩ := hgiven
        have htree := inFile_eq_some_iff.mpr ⟨document, entries, _, hsome, hread, hvalue, rfl⟩
        rw [hfile, treeOf_eq_leaf_iff.mpr ⟨rfl, hstands⟩] at htree
        exact ⟨_, _, Option.some.inj htree, hmeans⟩
    | byDefault hnot =>
        obtain ⟨document, entries, value, hsome, hread, hvalue, _⟩ := inFile_eq_some_iff.mp hfile
        exact absurd (.inr ⟨value, document, entries, hsome, hread, hvalue⟩) hnot
  · rintro ⟨origin, value, rfl, hmeans⟩
    obtain ⟨document, entries, given, hsome, hread, hvalue, htree⟩ := inFile_eq_some_iff.mp hfile
    exact .byFile hnone ⟨document, entries, hsome, hread, hvalue⟩
      (treeOf_eq_leaf_iff.mp htree.symm).2 hmeans

theorem effective_eq_ok_iff (horderly : IsOrderly environment) :
    f.effective (f.given file environment) = .ok v ↔ f.Becomes file environment v := by
  unfold given
  cases hvariable : f.inEnvironment environment with
  | some tree => exact (becomes_iff_of_variable horderly hvariable).symm
  | none =>
      cases hfile : f.inFile file with
      | some tree => exact (becomes_iff_of_file hvariable hfile).symm
      | none =>
          have hnot : ¬f.IsGiven file environment := by
            rintro (hsome | ⟨value, hsome⟩)
            · exact inEnvironment_eq_none_iff.mp hvariable hsome
            · exact inFile_eq_none_iff.mp hfile value hsome
          constructor
          · intro h
            cases h
            exact .byDefault hnot
          · intro h
            cases h with
            | byVariable hmem hname _ _ => exact absurd (.inl ⟨_, hmem, hname⟩) hnot
            | byFile _ hgiven _ _ => exact absurd (.inr ⟨_, hgiven⟩) hnot
            | byDefault _ => rfl

theorem isGiven_iff :
    f.IsGiven file environment ↔ ∃ tree, f.given file environment = some tree := by
  rw [← Option.isSome_iff_exists, given, Option.isSome_or, Bool.or_eq_true]
  refine or_congr ?_ ?_
  · rw [← Option.ne_none_iff_isSome, Ne, inEnvironment_eq_none_iff, not_not]
  · rw [← Option.ne_none_iff_isSome, Ne, inFile_eq_none_iff, not_forall_not]

end Field

/-! ## Main result -/

theorem readSettings_eq_read (path : String) (machine : Machine) :
    ((readSettings path : StateM Machine _) machine).1 =
      Settings.read ((findSettings path : StateM Machine _) machine).1 machine.environment := by
  have hmachine := findSettings_machine path machine
  have henvironment (m : Machine) :
      (Host.environment : StateM Machine Environment) m = (m.environment, m) := rfl
  rw [readSettings, bind_apply, bind_apply, henvironment, hmachine]
  rfl

/-- Settings are read exactly if every field becomes what it is in them and they are acceptable.
Reading fails exactly if some field is given a value that means nothing for it, or if what the
fields become is refused. A field becomes what its own variable means, else what the file means,
else its default; nothing depends on the other fields, on unknown keys or on what is overridden. -/
theorem settings_field_by_field {path : String} {machine : Machine}
    (h : IsOrdinary ((findSettings path : StateM Machine _) machine).1 machine.environment) :
    (∀ s : Settings, ((readSettings path : StateM Machine _) machine).1 = .ok s ↔
      (∀ f : Field, f.Becomes ((findSettings path : StateM Machine _) machine).1
        machine.environment (f.get s)) ∧ s.validate = .ok ()) ∧
    ((∃ e, ((readSettings path : StateM Machine _) machine).1 = .error e) ↔
      (∃ f : Field,
        f.IsGiven ((findSettings path : StateM Machine _) machine).1 machine.environment ∧
        ∀ v, ¬f.Becomes ((findSettings path : StateM Machine _) machine).1
          machine.environment v) ∨
      ∃ (s : Settings) (reason : Refusal),
        (∀ f : Field, f.Becomes ((findSettings path : StateM Machine _) machine).1
          machine.environment (f.get s)) ∧ s.validate = .error reason) := by
  rw [readSettings_eq_read]
  generalize ((findSettings path : StateM Machine _) machine).1 = file at h
  have hfields (s : Settings) :
      (∀ f : Field, f.effective (f.given file machine.environment) = .ok (f.get s)) ↔
        ∀ f : Field, f.Becomes file machine.environment (f.get s) :=
    forall_congr' fun f => Field.effective_eq_ok_iff h.environment
  constructor
  · intro s
    rw [read_eq_ok_iff h, hfields]
  · rw [read_eq_error_iff h]
    refine or_congr (exists_congr fun f => ?_) ?_
    · constructor
      · rintro ⟨tree, fault, hgiven, htake⟩
        refine ⟨Field.isGiven_iff.mpr ⟨tree, hgiven⟩, fun v hv => ?_⟩
        have heffective := (Field.effective_eq_ok_iff h.environment).mpr hv
        rw [hgiven] at heffective
        cases htake.symm.trans heffective
      · rintro ⟨hsome, hnone⟩
        obtain ⟨tree, hgiven⟩ := Field.isGiven_iff.mp hsome
        cases htake : f.take tree with
        | error fault => exact ⟨tree, fault, hgiven, htake⟩
        | ok v =>
            refine absurd ((Field.effective_eq_ok_iff h.environment).mp ?_) (hnone v)
            rw [hgiven]
            exact htake
    · simp only [hfields]

def noteText : String := "[Chart]\nwidth = 3\ndpi = \"many\"\n"

def noteEntries : Toml.Entries :=
  [("Chart", .table [("width", .integer 3), ("dpi", .text "many")])]

/-- Values of a document are nested, so their equality is not decided; that they are these is. -/
def areNoteEntries : Option Toml.Entries → Bool
  | some [("Chart", .table [("width", .integer 3), ("dpi", .text "many")])] => true
  | _ => false

theorem eq_of_areNoteEntries {entries : Option Toml.Entries} (h : areNoteEntries entries = true) :
    entries = some noteEntries := by
  unfold areNoteEntries at h
  split at h
  · rfl
  · cases h

theorem read_noteText : Toml.read noteText = some noteEntries :=
  eq_of_areNoteEntries (by decide +kernel)

theorem isPlain_noteEntries : IsPlain noteEntries := by
  constructor
  · intro e he
    cases List.mem_singleton.mp he
    exact KeyPath.ofKey_eq_self (by decide) (by decide)
  · intro f
    have hchart : f.group = "chart" → valuesFor f.group noteEntries =
        [.table [("width", .integer 3), ("dpi", .text "many")]] := by
      intro hgroup
      rw [hgroup]
      rfl
    cases f <;> first | exact .inl rfl | exact .inr ⟨_, hchart rfl, by decide⟩

/-- A machine with this document, and with variables that override its resolution and set a level
and whether the chart is shown. -/
def overridden : Machine where
  disk := {
    entries := [(["work"], .directory), (["rehashplot.toml", "work"], .file noteText.toUTF8)]
    here := ["work"]
    sealed := []
    isFull := false }
  environment := [("HOME", "/root"), ("REHASHPLOT_CHART__DPI", "50"),
    ("REHASHPLOT_CHART__EXTRA__DEEP", "1"), ("Rehashplot_Log__Level", "DEBUG"),
    ("REHASHPLOT_CHART__SHOW", "False")]
  viewer := none
  logger := none
  printed := []
  complaints := []
  stamp := "00h 00m 00s"
  elapsed := "1.00ms"

theorem findSettings_overridden :
    ((findSettings settingsPath : StateM Machine _) overridden).1 =
      some ⟨"rehashplot.toml", noteText⟩ := by
  have hexact : overridden.disk.read "/work/rehashplot" = .error .missing := by
    rw [Files.Disk.read, Files.Disk.locate, Files.Disk.checkPath_eq_ok_iff.mpr (by decide)]
    rfl
  have hfound : overridden.disk.read "/work/rehashplot.toml" = .ok noteText.toUTF8 := by
    rw [Files.Disk.read, Files.Disk.locate, Files.Disk.checkPath_eq_ok_iff.mpr (by decide)]
    rfl
  have hread (path : String) : (Host.readFile path : StateM Machine _) overridden =
      (overridden.disk.read path, overridden) := rfl
  have hhere :
      (Host.workingDirectory : StateM Machine String) overridden = ("/work", overridden) := by
    have hpath : Machine.pathOf overridden.disk.here = "/work" := by decide
    exact congrArg (·, overridden) hpath
  have hpaths : Files.Path.join "/work" settingsPath ::
      (Files.Path.withSuffix (Files.Path.join "/work" settingsPath) ".toml").toList =
        ["/work/rehashplot", "/work/rehashplot.toml"] := by decide
  have hfirst : ((firstFile ["/work/rehashplot", "/work/rehashplot.toml"] : StateM Machine _)
      overridden).1 = some ("/work/rehashplot.toml", noteText.toUTF8) := by
    rw [firstFile, bind_apply, hread, hexact]
    dsimp only
    rw [firstFile, bind_apply, hread, hfound]
    rfl
  rw [findSettings, bind_apply, hhere]
  dsimp only
  have hdecode : Text.decode noteText.toUTF8 = .ok noteText := by decide
  have hrelative : Files.Path.relativeTo "/work" "/work/rehashplot.toml" = "rehashplot.toml" := by
    decide
  rw [hpaths, bind_apply, hfirst]
  dsimp only
  rw [hdecode]
  dsimp only
  rw [hrelative]
  rfl

theorem isStray_extra : IsStray "chart.extra.deep" := by
  refine ⟨by decide, ?_, ?_⟩
  · intro f
    cases f <;> decide
  · intro f
    cases f <;> decide

theorem isOrdinary_overridden : IsOrdinary
    ((findSettings settingsPath : StateM Machine _) overridden).1 overridden.environment := by
  rw [findSettings_overridden]
  refine ⟨?_, ?_, ?_⟩
  · intro f hf
    cases hf
    exact ⟨noteEntries, read_noteText, isPlain_noteEntries⟩
  · intro v hv
    simp only [overridden, List.mem_cons, List.not_mem_nil, or_false] at hv
    obtain rfl | rfl | rfl | rfl | rfl := hv
    · refine .inr fun key hkey => ?_
      have hnone : keyOfVariable "HOME" = none := by decide
      cases hnone.symm.trans hkey
    · exact .inl ⟨.dpi, by decide⟩
    · refine .inr fun key hkey => ?_
      have hsome : keyOfVariable "REHASHPLOT_CHART__EXTRA__DEEP" = some "chart.extra.deep" := by
        decide
      cases hsome.symm.trans hkey
      exact isStray_extra
    · exact .inl ⟨.level, by decide⟩
    · exact .inl ⟨.shown, by decide⟩
  · have hnames : (overridden.environment.map fun v => Text.lowercase v.1).Nodup := by decide
    exact (List.pairwise_map.mp hnames).imp fun hne f hv hw => hne (hv.trans hw.symm)

def overriddenSettings : Settings :=
  ⟨.default, { ChartSettings.default with width := 3, dpi := 50, shown := false }, ⟨"DEBUG", ""⟩⟩

theorem validate_overriddenSettings : overriddenSettings.validate = .ok () := by decide +kernel

theorem effective_overridden (f : Field) :
    f.effective (f.given ((findSettings settingsPath : StateM Machine _) overridden).1
      overridden.environment) = .ok (f.get overriddenSettings) := by
  rw [findSettings_overridden, Field.given, Field.inFile, Option.bind_eq_bind, Option.bind_some,
    read_noteText]
  cases f <;> rfl

/-- The resolution of the environment prevails over one that means nothing, and the word of a
variable hides the chart. -/
theorem overridden_settings :
    IsOrdinary ((findSettings settingsPath : StateM Machine _) overridden).1
        overridden.environment ∧
      ((readSettings settingsPath : StateM Machine _) overridden).1 =
        .ok ⟨.default, { ChartSettings.default with width := 3, dpi := 50, shown := false },
          ⟨"DEBUG", ""⟩⟩ := by
  refine ⟨isOrdinary_overridden,
    ((settings_field_by_field isOrdinary_overridden).1 overriddenSettings).mpr ⟨?_, ?_⟩⟩
  · intro f
    exact (Field.effective_eq_ok_iff isOrdinary_overridden.environment).mp (effective_overridden f)
  · exact validate_overriddenSettings

end RehashChart.Settings
