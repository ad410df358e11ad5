import RehashChart.Pattern.Sign

/-! # Sets in brackets

Operators between two lists are applied from the left. A minus sign is a character of the set where
no range can be meant: at the start and at the end.
-/

namespace RehashChart.Pattern

/-- The names of the sets that stand between colons. -/
def setNames : List String :=
  ["alnum", "alpha", "ascii", "blank", "cntrl", "digit", "graph", "lower", "print", "punct",
    "space", "upper", "word", "xdigit"]

/-- Reads a set that is named between colons, after its opening bracket: whether it is negated. -/
def readNamed (text : List Char) : Option (Bool × List Char) :=
  match text with
  | ':' :: rest =>
      let isNegated := rest.head? = some '^'
      let rest := if isNegated then rest.tail else rest
      match rest.dropWhile (· ≠ ':') with
      | ':' :: ']' :: after =>
          if String.ofList (rest.takeWhile (· ≠ ':')) ∈ setNames then some (isNegated, after)
          else none
      | _ => none
  | _ => none

def Leaf.toItem? : Leaf → Option SetItem
  | .sign s => some (.sign s)
  | .shorthand negated => some (.shorthand negated)
  | _ => none

def rangeOf? : Leaf → Leaf → Option SetItem
  | .sign low, .sign high => if low.char ≤ high.char then some (.range low high) else none
  | _, _ => none

def readRange (verbose : Bool) (text : List Char) : Option (SetItem × List Char) := do
  let (first, rest) ← readSign verbose text
  match toSign verbose rest with
  | '-' :: after =>
      let next := ahead? verbose after
      if next = some ']' ∨ next = some '-' then
        first.toItem?.map (·, '-' :: after)
      else
        let (last, rest) ← readSign verbose (toSign verbose after)
        (rangeOf? first last).map (·, rest)
  | rest => first.toItem?.map (·, rest)

def readOperator : List Char → Option (SetOperator × List Char)
  | '&' :: '&' :: rest => some (.both, rest)
  | '-' :: '-' :: rest => some (.onlyLeft, rest)
  | '~' :: '~' :: rest => some (.onlyOne, rest)
  | _ => none

/-- Which characters of a set are read: none, minus signs only, or more. -/
inductive SetStart where
  | nothing
  | dashes
  | past

/-- A character that stands for itself at the start of a set only. -/
def SetStart.takes : SetStart → Char → Bool
  | nothing, c => c = '-' || c = ']'
  | dashes, c => c = '-'
  | past, _ => false

/-- A set under way: the set so far with the operator after it, and the list since then, the last
one first. -/
structure SetDraft where
  left : Option (CharSet × SetOperator)
  listed : List CharSet

def SetDraft.add (d : SetDraft) (set : CharSet) : SetDraft := { d with listed := set :: d.listed }

def SetDraft.finish (d : SetDraft) : CharSet :=
  let right := CharSet.ofList d.listed.reverse
  match d.left with
  | none => right
  | some (left, op) => .combined op left right

def readCaret (verbose : Bool) (text : List Char) : Bool × List Char :=
  match toSign verbose text with
  | '^' :: rest => (true, rest)
  | rest => (false, rest)

def readSetFrom (verbose : Bool) :
    Nat → SetStart → SetDraft → List Char → Option (CharSet × List Char)
  | 0, _, _, _ => none
  | fuel + 1, start, draft, text =>
      match toSign verbose text with
      | [] => none
      | c :: rest =>
          if start.takes c then
            readSetFrom verbose fuel (if c = '-' then .dashes else .past)
              (draft.add (.item (.sign ⟨c, false⟩))) rest
          else if c = ']' then some (draft.finish, rest)
          else if c = '[' then
            match readNamed rest with
            | some (isNegated, rest) =>
                readSetFrom verbose fuel .past (draft.add (.item (.named isNegated))) rest
            | none =>
                let (isNegated, rest) := readCaret verbose rest
                match readSetFrom verbose fuel .nothing ⟨none, []⟩ rest with
                | some (inner, rest) =>
                    readSetFrom verbose fuel .past (draft.add (.brackets isNegated inner)) rest
                | none => none
          else
            match readOperator (c :: rest) with
            | some (op, rest) => readSetFrom verbose fuel .past ⟨some (draft.finish, op), []⟩ rest
            | none =>
                match readRange verbose (c :: rest) with
                | some (item, rest) =>
                    readSetFrom verbose fuel .past (draft.add (.item item)) rest
                | none => none

def readSet (verbose : Bool) (text : List Char) : Option (CharSet × List Char) :=
  let (isNegated, rest) := readCaret verbose text
  (readSetFrom verbose (rest.length + 1) .nothing ⟨none, []⟩ rest).map fun (inner, rest) =>
    (.brackets isNegated inner, rest)

end RehashChart.Pattern
