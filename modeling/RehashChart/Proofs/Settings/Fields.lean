import RehashChart.Host.Machine
import RehashChart.Proofs.Settings.KeyPaths
import RehashChart.Proofs.Settings.Trees
import RehashChart.Run.Pipeline

/-! # Settings field by field

A section is read as a whole, yet each setting is what it would be if there were no others. What the
document says in vain is not looked at.
-/

namespace RehashChart.Settings

inductive Field where
  | input
  | output
  | width
  | height
  | dpi
  | shown
  | level
  | file
  deriving DecidableEq

namespace Field

def group : Field → String
  | input | output => "paths"
  | width | height | dpi | shown => "chart"
  | level | file => "log"

def name : Field → String
  | input => "input"
  | output => "output"
  | width => "width"
  | height => "height"
  | dpi => "dpi"
  | shown => "show"
  | level => "level"
  | file => "file"

/-- The environment variable for a field, in lower case. -/
def variableName (f : Field) : String := "rehashplot_" ++ f.group ++ "__" ++ f.name

def Value : Field → Type
  | input | output | level | file => String
  | width | height => Binary64
  | dpi => UInt32
  | shown => Bool

def get : (f : Field) → Settings → f.Value
  | input, s => s.paths.input
  | output, s => s.paths.output
  | width, s => s.chart.width
  | height, s => s.chart.height
  | dpi, s => s.chart.dpi
  | shown, s => s.chart.shown
  | level, s => s.log.level
  | file, s => s.log.file

def take : (f : Field) → Tree → Except Mismatch f.Value
  | input | output | level | file => takeText
  | width | height => takeNumber
  | dpi => takeWord
  | shown => takeBool

def effective (f : Field) (given : Option Tree) : Except Mismatch f.Value :=
  match given with
  | none => .ok (f.get .default)
  | some tree => f.take tree

/-- What a document says for a field: what is in its section's table for its name, letters of any
case. -/
def inDocument (f : Field) (entries : Toml.Entries) : Option Toml.Value :=
  match valuesFor f.group entries with
  | .table fields :: _ => (valuesFor f.name fields).head?
  | _ => none

def inFile (f : Field) (file : Option File) : Option Tree := do
  let file ← file
  let entries ← Toml.read file.text
  let value ← f.inDocument entries
  return treeOf (.file file.path) value

def inEnvironment (f : Field) (environment : Environment) : Option Tree :=
  (environment.find? fun v => Text.lowercase v.1 = f.variableName).map fun v =>
    .leaf (some .environment) (leafOfText v.2)

/-- What is given for a field: the environment prevails over the file. -/
def given (f : Field) (file : Option File) (environment : Environment) : Option Tree :=
  (f.inEnvironment environment).or (f.inFile file)

def inTree (f : Field) (tree : Tree) : Option Tree := (tree.get? f.group).bind (·.get? f.name)

theorem name_inj {f g : Field} (h : f.name = g.name) : f = g := by
  cases f <;> cases g <;> first | rfl | exact absurd h (by decide)

theorem variableName_inj {f g : Field} (h : f.variableName = g.variableName) : f = g := by
  cases f <;> cases g <;> first | rfl | exact absurd h (by decide)

theorem exists_settings (value : (f : Field) → f.Value) :
    ∃ s : Settings, ∀ f, f.get s = value f := by
  refine ⟨⟨⟨value input, value output⟩,
    ⟨value width, value height, value dpi, value shown⟩, ⟨value level, value file⟩⟩, ?_⟩
  intro f
  cases f <;> rfl

theorem eq_of_get {s t : Settings} (h : ∀ f : Field, f.get s = f.get t) : s = t := by
  obtain ⟨⟨sinput, soutput⟩, ⟨swidth, sheight, sdpi, sshown⟩, ⟨slevel, sfile⟩⟩ := s
  obtain ⟨⟨tinput, toutput⟩, ⟨twidth, theight, tdpi, tshown⟩, ⟨tlevel, tfile⟩⟩ := t
  cases h input
  cases h output
  cases h width
  cases h height
  cases h dpi
  cases h shown
  cases h level
  cases h file
  rfl

end Field

/-! ## Reading a tree -/

/-- In a tree with sections, what stands for a section is a table. -/
def Sectioned (tree : Tree) : Prop :=
  ∀ (f : Field) (s : Tree), tree.get? f.group = some s → s.IsTable

section

variable {tree : Tree}

/-- A section of a tree, and that reading a field of it is reading the field in the tree. -/
theorem exists_section (h : Sectioned tree) (f : Field) (title : String) :
    ∃ s : Section, sectionOf tree f.group title = .ok s ∧
      ∀ g : Field, g.group = f.group → ∀ (i : Nat) (value : g.Value),
        s.field i g.name (g.get .default) g.take = .ok value ↔
          g.effective (g.inTree tree) = .ok value := by
  have hsection : ∃ s : Section, sectionOf tree f.group title = .ok s ∧ ∀ i name,
      s i name = ((tree.get? f.group).bind (·.get? name)).map (s!"{f.group}.{name}", ·) := by
    unfold sectionOf
    cases hgroup : tree.get? f.group with
    | none => exact ⟨_, rfl, fun _ _ => rfl⟩
    | some s =>
        obtain ⟨origin, entries, rfl⟩ := h f s hgroup
        exact ⟨_, rfl, fun _ _ => rfl⟩
  obtain ⟨s, hs, hfields⟩ := hsection
  refine ⟨s, hs, ?_⟩
  intro g hg i value
  unfold Section.field Field.effective Field.inTree
  rw [hfields, hg]
  cases (tree.get? f.group).bind (·.get? g.name) with
  | none => simp
  | some found =>
      simp only [Option.map_some]
      cases g.take found <;> simp

theorem readPaths_eq_ok_iff (h : Sectioned tree) {p : Paths} :
    readPaths tree = .ok p ↔
      Field.effective .input (Field.inTree .input tree) = .ok p.input ∧
        Field.effective .output (Field.inTree .output tree) = .ok p.output := by
  obtain ⟨s, hs, hfield⟩ := exists_section h .input "Paths"
  change sectionOf tree "paths" "Paths" = .ok s at hs
  unfold readPaths
  simp only [hs, bind_eq_ok]
  constructor
  · intro hread
    obtain ⟨_, hsection, input, hinput, output, houtput, hp⟩ := hread
    cases hsection
    cases hp
    exact ⟨(hfield .input rfl 0 _).mp hinput, (hfield .output rfl 1 _).mp houtput⟩
  · intro hread
    exact ⟨s, rfl, _, (hfield .input rfl 0 _).mpr hread.1, _,
      (hfield .output rfl 1 _).mpr hread.2, rfl⟩

theorem readChart_eq_ok_iff (h : Sectioned tree) {c : ChartSettings} :
    readChart tree = .ok c ↔
      Field.effective .width (Field.inTree .width tree) = .ok c.width ∧
        Field.effective .height (Field.inTree .height tree) = .ok c.height ∧
          Field.effective .dpi (Field.inTree .dpi tree) = .ok c.dpi ∧
            Field.effective .shown (Field.inTree .shown tree) = .ok c.shown := by
  obtain ⟨s, hs, hfield⟩ := exists_section h .width "Chart"
  change sectionOf tree "chart" "Chart" = .ok s at hs
  unfold readChart
  simp only [hs, bind_eq_ok]
  constructor
  · intro hread
    obtain ⟨_, hsection, width, hwidth, height, hheight, dpi, hdpi, shown, hshown, hc⟩ := hread
    cases hsection
    cases hc
    exact ⟨(hfield .width rfl 0 _).mp hwidth, (hfield .height rfl 1 _).mp hheight,
      (hfield .dpi rfl 2 _).mp hdpi, (hfield .shown rfl 3 _).mp hshown⟩
  · intro hread
    exact ⟨s, rfl, _, (hfield .width rfl 0 _).mpr hread.1, _,
      (hfield .height rfl 1 _).mpr hread.2.1, _, (hfield .dpi rfl 2 _).mpr hread.2.2.1, _,
      (hfield .shown rfl 3 _).mpr hread.2.2.2, rfl⟩

theorem readLog_eq_ok_iff (h : Sectioned tree) {l : LogSettings} :
    readLog tree = .ok l ↔
      Field.effective .level (Field.inTree .level tree) = .ok l.level ∧
        Field.effective .file (Field.inTree .file tree) = .ok l.file := by
  obtain ⟨s, hs, hfield⟩ := exists_section h .level "Log"
  change sectionOf tree "log" "Log" = .ok s at hs
  unfold readLog
  simp only [hs, bind_eq_ok]
  constructor
  · intro hread
    obtain ⟨_, hsection, level, hlevel, file, hfile, hl⟩ := hread
    cases hsection
    cases hl
    exact ⟨(hfield .level rfl 0 _).mp hlevel, (hfield .file rfl 1 _).mp hfile⟩
  · intro hread
    exact ⟨s, rfl, _, (hfield .level rfl 0 _).mpr hread.1, _,
      (hfield .file rfl 1 _).mpr hread.2, rfl⟩

theorem ofTree_eq_ok_iff (h : Sectioned tree) {s : Settings} :
    ofTree tree = .ok s ↔ ∀ f : Field, f.effective (f.inTree tree) = .ok (f.get s) := by
  simp only [ofTree, bind_eq_ok, readPaths_eq_ok_iff h, readChart_eq_ok_iff h,
    readLog_eq_ok_iff h]
  constructor
  · intro hread
    obtain ⟨paths, hpaths, chart, hchart, log, hlog, hs⟩ := hread
    cases hs
    intro f
    cases f with
    | input => exact hpaths.1
    | output => exact hpaths.2
    | width => exact hchart.1
    | height => exact hchart.2.1
    | dpi => exact hchart.2.2.1
    | shown => exact hchart.2.2.2
    | level => exact hlog.1
    | file => exact hlog.2
  · intro hall
    exact ⟨s.paths, ⟨hall .input, hall .output⟩, s.chart,
      ⟨hall .width, hall .height, hall .dpi, hall .shown⟩, s.log, ⟨hall .level, hall .file⟩, rfl⟩

/-! ## Filling a tree -/

theorem sectioned_empty : Sectioned Tree.empty := by
  intro f s hs
  cases hs

theorem put_apart {key : String} (value : Tree) (h : Sectioned tree)
    (hkey : ∀ f : Field, key ≠ f.group) :
    Sectioned (tree.put key value) ∧ ∀ f : Field, f.inTree (tree.put key value) = f.inTree tree := by
  have hget (f : Field) : (tree.put key value).get? f.group = tree.get? f.group := by
    rw [Tree.get?_put, if_neg (hkey f)]
  constructor
  · intro f s hs
    rw [hget] at hs
    exact h f s hs
  · intro f
    rw [Field.inTree, hget, Field.inTree]

/-- A value for a name in a section is the value of the field with this name, if there is one, and
changes no other field. -/
theorem put_below (group name : String) (value : Tree) (h : Sectioned tree) :
    let filled := tree.put group (((tree.get? group).getD Tree.empty).put name value)
    Sectioned filled ∧ ∀ f : Field,
      f.inTree filled = if group = f.group ∧ name = f.name then some value else f.inTree tree := by
  intro filled
  have hget (f : Field) : filled.get? f.group =
      if group = f.group then some (((tree.get? group).getD Tree.empty).put name value)
      else tree.get? f.group := Tree.get?_put _ _ _ _
  constructor
  · intro f s hs
    rw [hget] at hs
    split at hs
    · cases hs
      exact Tree.isTable_put _ _ _
    · exact h f s hs
  · intro f
    rw [Field.inTree, hget]
    by_cases hgroup : group = f.group
    · rw [if_pos hgroup, Option.bind_some, Tree.get?_put, Tree.get?_getD, hgroup, Field.inTree]
      simp
    · rw [if_neg hgroup, if_neg (fun hand => hgroup hand.1), Field.inTree]

end

end RehashChart.Settings
