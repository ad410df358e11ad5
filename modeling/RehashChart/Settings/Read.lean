import RehashChart.Settings.Field
import RehashChart.Toml.Document

/-! # Reading settings

The values of a document and of the environment become one tree. Every value that is given has to
fit its field, and the settings as a whole have to be acceptable.
-/

namespace RehashChart.Settings

inductive ReadError where
  /-- The settings file is no document. -/
  | malformed
  | mismatch (key : String) (fault : Mismatch)
  /-- A section has a value without parts. -/
  | noSection (name : String) (value : Leaf)
  | refused (reason : Refusal)
  /-- An index in a key lies before the start of its list. -/
  | beforeStart
  deriving DecidableEq

def Origin.message : Origin → String
  | file path => path
  | environment => "the environment"

def Mismatch.message (key : String) (m : Mismatch) : String :=
  let written :=
    match m.origin with
    | none => ""
    | some origin => s!" in {origin.message}"
  s!"invalid type: {m.found.message}, expected {m.expected.message} for key `{key}`{written}"

/-- The text of a number that shows that it is no integer. -/
def pointedText (x : Binary64) : String :=
  let text := x.plainText
  if x.isFinite && !text.contains '.' then text ++ ".0" else text

/-- A value that is no section, as the message says it. -/
def Leaf.message : Leaf → String
  | missing => "unit value"
  | boolean b => s!"boolean `{b}`"
  | integer n => s!"integer `{n}`"
  | float x => s!"floating point `{pointedText x}`"
  | text s => s!"string {Text.quoted s}"

def ReadError.message : ReadError → String
  | malformed => "malformed settings"
  | mismatch key fault => fault.message key
  | noSection name value => s!"invalid type: {value.message}, expected struct {name}"
  | refused reason => reason.message
  | beforeStart => "index before the start of a list"

/-! ## Sections -/

abbrev Section := Nat → String → Option (String × Tree)

/-- The section with a key, or an empty one. Its title stands in messages. -/
def sectionOf (tree : Tree) (key title : String) : Except ReadError Section :=
  match tree.get? key with
  | none => .ok fun _ _ => none
  | some (.leaf _ value) => .error (.noSection title value)
  | some (.list _ items) => .ok fun i _ => items[i]?.map (s!"{key}[{i}]", ·)
  | some (.table _ entries) =>
      .ok fun _ field => (Keyed.get? field entries).map (s!"{key}.{field}", ·)

def Section.field {α : Type} (s : Section) (i : Nat) (name : String) (default : α)
    (take : Tree → Except Mismatch α) : Except ReadError α :=
  match s i name with
  | none => .ok default
  | some (key, tree) => (take tree).mapError (.mismatch key)

def readPaths (tree : Tree) : Except ReadError Paths := do
  let s ← sectionOf tree "paths" "Paths"
  let input ← s.field 0 "input" Paths.default.input takeText
  let output ← s.field 1 "output" Paths.default.output takeText
  return ⟨input, output⟩

def readChart (tree : Tree) : Except ReadError ChartSettings := do
  let s ← sectionOf tree "chart" "Chart"
  let width ← s.field 0 "width" ChartSettings.default.width takeNumber
  let height ← s.field 1 "height" ChartSettings.default.height takeNumber
  let dpi ← s.field 2 "dpi" ChartSettings.default.dpi takeWord
  let shown ← s.field 3 "show" ChartSettings.default.shown takeBool
  return ⟨width, height, dpi, shown⟩

def readLog (tree : Tree) : Except ReadError LogSettings := do
  let s ← sectionOf tree "log" "Log"
  let level ← s.field 0 "level" LogSettings.default.level takeText
  let file ← s.field 1 "file" LogSettings.default.file takeText
  return ⟨level, file⟩

def ofTree (tree : Tree) : Except ReadError Settings := do
  let paths ← readPaths tree
  let chart ← readChart tree
  let log ← readLog tree
  return ⟨paths, chart, log⟩

/-! ## Sources -/

def mergeSources (sources : List Source) : Except ReadError Tree :=
  match sources.foldlM (fun tree source => source.layer tree) Tree.empty with
  | some tree => .ok tree
  | none => .error .beforeStart

def ofSources (sources : List Source) : Except ReadError Settings := do
  let tree ← mergeSources sources
  let settings ← ofTree tree
  settings.validate.mapError .refused
  return settings

/-- A settings file: its path, as messages show it, and its text. -/
structure File where
  path : String
  text : String

def sourceOfFile : Option File → Except ReadError Source
  | none => .ok []
  | some file =>
      match Toml.read file.text with
      | some entries => .ok (.ofDocument file.path entries)
      | none => .error .malformed

def read (file : Option File) (environment : Environment) : Except ReadError Settings := do
  let source ← sourceOfFile file
  ofSources [source, .ofEnvironment environment]

end RehashChart.Settings
