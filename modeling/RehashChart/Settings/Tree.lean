import RehashChart.Keyed
import RehashChart.Text.Lowercase
import RehashChart.Toml.Value

/-! # Trees of given values

A value keeps where it was written. Laying a table over another merges the two, laying anything else
over a value replaces it. Keys are in lower case.
-/

namespace RehashChart.Settings

inductive Origin where
  | file (path : String)
  | environment
  deriving DecidableEq

inductive Leaf where
  /-- Stands where a list has been given an item further on only. -/
  | missing
  | boolean (b : Bool)
  | integer (n : Int)
  | float (x : Binary64)
  | text (s : String)
  deriving DecidableEq

inductive Tree where
  | leaf (origin : Option Origin) (value : Leaf)
  | list (origin : Option Origin) (items : List Tree)
  | table (origin : Option Origin) (entries : List (String × Tree))

namespace Tree

def empty : Tree := table none []

def get? (tree : Tree) (key : String) : Option Tree :=
  match tree with
  | table _ entries => Keyed.get? key entries
  | _ => none

/-- Makes a table hold a value for a key; what is no table becomes one. -/
def put (tree : Tree) (key : String) (value : Tree) : Tree :=
  match tree with
  | table origin entries => table origin (Keyed.put key value entries)
  | _ => table none [(key, value)]

/-- The items of a list; what is no list has none. -/
def items : Tree → List Tree
  | list _ items => items
  | _ => []

/-- Makes the items of a list these; what is no list becomes one. -/
def withItems (tree : Tree) (items : List Tree) : Tree :=
  match tree with
  | list origin _ => list origin items
  | _ => list none items

mutual

def laidOver (existing : Option Tree) : Tree → Tree
  | table _ entries => overlay entries (existing.getD empty)
  | value => value

def overlay : List (String × Tree) → Tree → Tree
  | [], target => target
  | (key, value) :: rest, target =>
      let key := Text.lowercase key
      overlay rest (target.put key (value.laidOver (target.get? key)))

end

/-! ## Places below a tree -/

inductive Step where
  | key (name : String)
  /-- A negative index counts from the end of the list. -/
  | index (i : Int)
  deriving DecidableEq

def position (length : Nat) (i : Int) : Option Nat :=
  if 0 ≤ i then some i.toNat
  else if i.natAbs ≤ length then some (length - i.natAbs)
  else none

/-- The items with one of them replaced; missing ones fill the list up to its place. -/
def replaceItem (items : List Tree) (i : Nat) (item : Tree) : List Tree :=
  (items ++ List.replicate (i + 1 - items.length) (leaf none .missing)).set i item

/-- Lays a value over what is at the end of a path. What is on the way and has no parts of the
right kind is replaced; an index before the start of its list leads nowhere. -/
def place (value : Tree) : List Step → Option Tree → Option Tree
  | [], existing => some (value.laidOver existing)
  | .key name :: path, existing =>
      let target := existing.getD empty
      let name := Text.lowercase name
      (place value path (target.get? name)).map fun inner => target.put name inner
  | .index i :: path, existing => do
      let target := existing.getD empty
      let at_ ← position target.items.length i
      let inner ← if path = [] then some value else place value path target.items[at_]?
      some (target.withItems (replaceItem target.items at_ inner))

end Tree

end RehashChart.Settings
