import RehashChart.Keyed
import RehashChart.Toml.Value

/-! # Tables as a document defines them

Tables are named by a header, by a longer header that passes through them, and by dotted keys. What
a table may still take in depends on which of these has been used, so one under construction keeps
its `Standing`.
-/

namespace RehashChart.Toml

/-- How a table has come to be. -/
inductive Standing where
  /-- By a header of its own, or inside braces: it is complete. -/
  | defined
  /-- By a header of a table below it: a header of its own may follow. -/
  | passed
  /-- By dotted keys: more of them may follow. -/
  | dotted
  deriving DecidableEq

inductive Item where
  | value (v : Value)
  | table (standing : Standing) (entries : List (String × Item))
  /-- The tables of a header in double brackets, the last one first. -/
  | rows (tables : List (List (String × Item)))

abbrev Draft := List (String × Item)

structure Assignment where
  path : List String
  key : String
  value : Value

namespace Draft

open Keyed

/-- Changes the table that a path leads to. Tables that the path is the first to name become
`fresh`; a dotted path does not lead through a table that is complete. -/
def within (fresh : Standing) (change : Standing → Draft → Option Draft) :
    List String → Standing → Draft → Option Draft
  | [], standing, draft => change standing draft
  | step :: path, _, draft =>
      match get? step draft with
      | none => (within fresh change path fresh []).map fun inner =>
          put step (.table fresh inner) draft
      | some (.table standing inner) =>
          if fresh = .dotted ∧ standing = .defined then none
          else (within fresh change path standing inner).map fun inner =>
            put step (.table standing inner) draft
      | some (.rows (last :: earlier)) =>
          (within fresh change path .defined last).map fun last =>
            put step (.rows (last :: earlier)) draft
      | some _ => none

/-- Gives a new key its value; what a dotted path leads to has to be a dotted table. -/
def assign (draft : Draft) (a : Assignment) : Option Draft :=
  within .dotted (fun standing inner =>
    if a.path ≠ [] ∧ standing ≠ .dotted then none
    else if (get? a.key inner).isSome then none
    else some (put a.key (.value a.value) inner)) a.path .defined draft

def assignAll (draft : Draft) (assignments : List Assignment) : Option Draft :=
  assignments.foldlM assign draft

/-- Defines a table by its header. It may have been passed through before, but its place among the
others is where it is defined. -/
def define (path : List String) (key : String) (assignments : List Assignment) (draft : Draft) :
    Option Draft :=
  within .passed (fun _ inner => do
    let start ←
      match get? key inner with
      | none => some []
      | some (.table .passed entries) => some entries
      | some _ => none
    let filled ← assignAll start assignments
    some (put key (.table .defined filled) (drop key inner))) path .defined draft

def append (path : List String) (key : String) (assignments : List Assignment) (draft : Draft) :
    Option Draft :=
  within .passed (fun _ inner => do
    let earlier ←
      match get? key inner with
      | none => some []
      | some (.rows tables) => some tables
      | some _ => none
    let filled ← assignAll [] assignments
    some (put key (.rows (filled :: earlier)) inner)) path .defined draft

end Draft

/-! ## Finished tables -/

mutual

def Item.toValue : Item → Value
  | .value v => v
  | .table _ entries => .table (toEntries entries)
  | .rows tables => .list (toTables tables).reverse

def toEntries : List (String × Item) → List (String × Value)
  | [] => []
  | (key, item) :: rest => (key, item.toValue) :: toEntries rest

def toTables : List (List (String × Item)) → List Value
  | [] => []
  | entries :: rest => .table (toEntries entries) :: toTables rest

end

end RehashChart.Toml
