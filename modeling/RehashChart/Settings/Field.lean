import RehashChart.Settings.Basic
import RehashChart.Settings.Source
import RehashChart.Text.Quoted

/-! # From given values to settings

A setting takes any value that can stand for one of its kind. What it cannot take is a `Mismatch`,
which says what has been found and what was expected.
-/

namespace RehashChart.Settings

/-- A value that a setting cannot take. -/
inductive Found where
  | text (s : String)
  | integer (n : Int)
  | natural (n : Nat)
  | list
  | table
  | nothing
  deriving DecidableEq

def Found.message : Found → String
  | text s => s!"string {Text.quoted s}"
  | integer n => s!"64-bit integer `{n}`"
  | natural n => s!"64-bit unsigned integer `{n}`"
  | list => "sequence"
  | table => "map"
  | nothing => "unit value"

inductive Expected where
  | text
  | number
  | boolean
  | integer
  /-- An integer that is not negative. -/
  | natural
  /-- One of at most 32 bits. -/
  | word
  deriving DecidableEq

def Expected.message : Expected → String
  | text => "a string"
  | number => "a floating point"
  | boolean => "a boolean"
  | integer => "an integer"
  | natural => "an unsigned 64 bit or less integer"
  | word => "an unsigned 32 bit integer"

structure Mismatch where
  found : Found
  expected : Expected
  /-- Where the value was written, if that is known. -/
  origin : Option Origin
  deriving DecidableEq

def readYesNo (word : String) : Option Bool :=
  if word = "true" ∨ word = "on" ∨ word = "yes" then some true
  else if word = "false" ∨ word = "off" ∨ word = "no" then some false
  else none

def Leaf.asText : Leaf → Option String
  | .text s => some s
  | .boolean b => some (if b then "true" else "false")
  | .integer n => some (toString n)
  | .float x => some x.plainText
  | .missing => none

/-- The value as what cannot be taken, if it has no other kind than its own. -/
def Leaf.found : Leaf → Found
  | .text s => .text s
  | .integer n => .integer n
  | _ => .nothing

/-- Reads a value without parts by `read`; a list or a table is never taken. -/
def takeLeaf {α : Type} (expected : Expected) (tree : Tree)
    (read : Option Origin → Leaf → Except Mismatch α) : Except Mismatch α :=
  match tree with
  | .leaf origin .missing => .error ⟨.nothing, expected, origin⟩
  | .leaf origin value => read origin value
  | .list origin _ => .error ⟨.list, expected, origin⟩
  | .table origin _ => .error ⟨.table, expected, origin⟩

/-- A text takes everything without parts. -/
def takeText (tree : Tree) : Except Mismatch String :=
  takeLeaf .text tree fun origin value =>
    match value.asText with
    | some s => .ok s
    | none => .error ⟨value.found, .text, origin⟩

def ofBool (b : Bool) : Nat := if b then 1 else 0

def takeNumber (tree : Tree) : Except Mismatch Binary64 :=
  takeLeaf .number tree fun origin value =>
    match value with
    | .float x => .ok x
    | .integer n => .ok (.ofInt n)
    | .boolean b => .ok (.ofNat (ofBool b))
    | .text s =>
        match readYesNo (Text.lowercase s) with
        | some b => .ok (.ofNat (ofBool b))
        | none =>
            match Binary64.read s.toList with
            | some x => .ok x
            | none => .error ⟨.text s, .number, origin⟩
    | .missing => .error ⟨.nothing, .number, origin⟩

/-- An integer that is not negative; numbers are rounded, a half away from zero. -/
def takeNatural (tree : Tree) : Except Mismatch Nat :=
  takeLeaf .integer tree fun origin value =>
    match value with
    | .integer n => if 0 ≤ n then .ok n.toNat else .error ⟨.integer n, .natural, origin⟩
    | .float x => .ok x.round.toNat64
    | .boolean b => .ok (ofBool b)
    | .text s =>
        match readYesNo (Text.lowercase s) with
        | some b => .ok (ofBool b)
        | none =>
            match Text.readNat64 s.toList with
            | some n => .ok n
            | none => .error ⟨.text s, .integer, origin⟩
    | .missing => .error ⟨.nothing, .integer, origin⟩

/-- Where a number that is too large was written is not told. -/
def takeWord (tree : Tree) : Except Mismatch UInt32 := do
  let n ← takeNatural tree
  if n < UInt32.size then .ok (UInt32.ofNat n) else .error ⟨.natural n, .word, none⟩

/-- Every number other than zero is a yes, a NaN too. -/
def takeBool (tree : Tree) : Except Mismatch Bool :=
  takeLeaf .boolean tree fun origin value =>
    match value with
    | .boolean b => .ok b
    | .integer n => .ok (n ≠ 0)
    | .float x => .ok (!x.eq 0)
    | .text s =>
        let word := Text.lowercase s
        match readYesNo word with
        | some b => .ok b
        | none =>
            if word = "1" then .ok true
            else if word = "0" then .ok false
            else .error ⟨.text word, .boolean, origin⟩
    | .missing => .error ⟨.nothing, .boolean, origin⟩

end RehashChart.Settings
