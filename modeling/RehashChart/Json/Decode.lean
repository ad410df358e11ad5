import RehashChart.Json.Reader

/-! # Taking values out of JSON

A structure may be an object with some of its fields, or a list of them in their order; the first
fault in reading order counts.
-/

namespace RehashChart.Json

/-- Why a text does not hold what is looked for. -/
inductive Fault where
  /-- A value is of the wrong kind or out of range, or a field is given twice. -/
  | unfit
  /-- The text is no JSON there, or goes on after its end. -/
  | malformed
  deriving DecidableEq

namespace Reading

def mismatch : Reading → Fault
  | broken => .malformed
  | text none => .malformed
  | number n => if n.worth = none then .malformed else .unfit
  | _ => .unfit

def toText : Reading → Except Fault String
  | text (some s) => .ok s
  | r => .error r.mismatch

def toBool : Reading → Except Fault Bool
  | boolean b => .ok b
  | r => .error r.mismatch

/-- Any number is a number; a whole one is the nearest there is. -/
def toNumber : Reading → Except Fault Binary64
  | number n =>
      match n.worth with
      | some (.natural k) => .ok (.ofNat k)
      | some (.negative k) => .ok (.ofInt (-k))
      | some (.float x) => .ok x
      | none => .error .malformed
  | r => .error r.mismatch

/-- A whole number of 32 bits that is written without a point or an exponent. -/
def toWord : Reading → Except Fault UInt32
  | number n =>
      match n.worth with
      | some (.natural k) => if k < UInt32.size then .ok (UInt32.ofNat k) else .error .unfit
      | some _ => .error .unfit
      | none => .error .malformed
  | r => .error r.mismatch

end Reading

/-! ## Structures -/

abbrev Setter (σ : Type) := Nat → Reading → σ → Except Fault σ

def setItems {σ : Type} (count : Nat) (set : Setter σ) : Nat → List Reading → σ → Except Fault σ
  | _, [], s => .ok s
  | i, item :: rest, s =>
      if i < count then (set i item s).bind (setItems count set (i + 1) rest)
      else .error .malformed

/-- Sets fields to the members of an object; `seen` are those that have been given before. -/
def setMembers {σ : Type} (names : List String) (set : Setter σ) :
    List Nat → List (Option String × Reading) → σ → Except Fault σ
  | _, [], s => .ok s
  | _, (none, _) :: _, _ => .error .malformed
  | seen, (some name, value) :: rest, s =>
      match names.idxOf? name with
      | none => if value.isSound then setMembers names set seen rest s else .error .malformed
      | some i =>
          if i ∈ seen then .error .unfit
          else (set i value s).bind (setMembers names set (i :: seen) rest)

def setFields {σ : Type} (names : List String) (set : Setter σ) (start : σ) :
    Reading → Except Fault σ
  | .list items => setItems names.length set 0 items start
  | .object members => setMembers names set [] members start
  | r => .error r.mismatch

def decode {α : Type} (take : Reading → Except Fault α) (text : String) : Except Fault α := do
  let (reading, rest) := read text.toList
  let result ← take reading
  if dropSpace rest = [] then .ok result else .error .malformed

end RehashChart.Json
