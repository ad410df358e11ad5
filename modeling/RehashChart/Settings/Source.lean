import RehashChart.Host.Environment
import RehashChart.Settings.KeyPath

/-! # Sources of settings

`Source.layer` lays what a source says over what earlier ones have said, so the environment prevails
over the document.
-/

namespace RehashChart.Settings

mutual

def treeOf (origin : Origin) : Toml.Value → Tree
  | .text s => .leaf (some origin) (.text s)
  | .integer n => .leaf (some origin) (.integer n)
  | .float x => .leaf (some origin) (.float x)
  | .boolean b => .leaf (some origin) (.boolean b)
  | .moment m => .leaf (some origin) (.text m.render)
  | .list items => .list (some origin) (treesOf origin items)
  | .table entries => .table (some origin) (entriesOf origin entries)

def treesOf (origin : Origin) : List Toml.Value → List Tree
  | [] => []
  | value :: rest => treeOf origin value :: treesOf origin rest

def entriesOf (origin : Origin) : List (String × Toml.Value) → List (String × Tree)
  | [] => []
  | (key, value) :: rest => (key, treeOf origin value) :: entriesOf origin rest

end

/-! ## Environment variables -/

/-- What the names of variables with settings start with, in letters of any case. -/
def variableStart : List Char := "rehashplot_".toList

/-- The name with a point for each double underscore. -/
def withPoints : List Char → List Char
  | '_' :: '_' :: rest => '.' :: withPoints rest
  | c :: rest => c :: withPoints rest
  | [] => []

/-- The key that a variable of this name gives a value to, if it is one with settings. -/
def keyOfVariable (name : String) : Option String :=
  let name := (Text.lowercase name).toList
  if variableStart <+: name then some (String.ofList (withPoints (name.drop variableStart.length)))
  else none

def leafOfText (text : String) : Leaf :=
  let lower := Text.lowercase text
  if lower = "true" then .boolean true
  else if lower = "false" then .boolean false
  else
    match Text.readInt64 text.toList with
    | some n => .integer n
    | none =>
        match Binary64.read text.toList with
        | some x => .float x
        | none => .text text

/-! ## Layers -/

/-- What one source says: keys, each of them maybe a path, and their values. -/
abbrev Source := List (String × Tree)

def Source.ofDocument (path : String) (entries : Toml.Entries) : Source :=
  entriesOf (.file path) entries

def Source.ofEnvironment (environment : Environment) : Source :=
  environment.filterMap fun (name, value) =>
    (keyOfVariable name).map fun key => (key, .leaf (some .environment) (leafOfText value))

/-- Lays a source over a tree; none if an index in a key lies before the start of its list. -/
def Source.layer (source : Source) (tree : Tree) : Option Tree :=
  source.foldlM (fun tree (key, value) => value.place (KeyPath.ofKey key) (some tree)) tree

end RehashChart.Settings
