import RehashChart.Pattern.Reader

/-! # Patterns that can be matched

A matcher knows the ASCII characters and no properties of others, unless texts are bytes, and goes
through a text in one pass. `fault?` says what it cannot do first.
-/

namespace RehashChart.Pattern

/-! ## Sets -/

mutual

def CharSet.items : CharSet → List SetItem
  | .empty => []
  | .item i => [i]
  | .brackets _ inner => inner.items
  | .union sets => itemsOfSets sets
  | .combined _ left right => left.items ++ right.items

def itemsOfSets : List CharSet → List SetItem
  | [] => []
  | set :: sets => set.items ++ itemsOfSets sets

end

def isAscii (c : Char) : Bool := c ≤ '\x7F'

def SetItem.isAscii : SetItem → Bool
  | .sign s => Pattern.isAscii s.char
  | .range low high => Pattern.isAscii low.char && Pattern.isAscii high.char
  | .named negated => !negated
  | .shorthand negated => !negated

mutual

def CharSet.isAscii : CharSet → Bool
  | .empty => true
  | .item i => i.isAscii
  | .brackets negated inner => !negated && inner.isAscii
  | .union sets => areAscii sets
  | .combined _ left right => left.isAscii && right.isAscii

def areAscii : List CharSet → Bool
  | [] => true
  | set :: sets => set.isAscii && areAscii sets

end

def SetItem.isShorthand : SetItem → Bool
  | .shorthand _ => true
  | _ => false

def CharSet.isSupported (o : Options) (s : CharSet) : Bool :=
  if o.unicode then s.items.all (!·.isShorthand) && (!o.ignoresCase || s.items = [])
  else s.isAscii

/-! ## Leaves -/

def Leaf.isSupported (o : Options) : Leaf → Bool
  | .sign s => if o.unicode then !o.ignoresCase else !s.isByteCode || isAscii s.char
  | .any => o.unicode
  | .shorthand negated => !o.unicode && !negated
  | .set s => s.isSupported o
  | .edge => true
  | .wordEdge => true

def Leaf.isWordEdge : Leaf → Bool
  | .wordEdge => true
  | _ => false

mutual

/-- The options after a pattern, by those before it. A group leaves them as they were. -/
def Expr.optionsAfter (o : Options) : Expr → Options
  | .turn changes => o.apply changes
  | .sequence es => optionsAfterAll o es
  | .choice es => optionsAfterAll o es
  | _ => o

def optionsAfterAll (o : Options) : List Expr → Options
  | [] => o
  | e :: es => optionsAfterAll (e.optionsAfter o) es

end

mutual

def Expr.leaves (o : Options) : Expr → List (Options × Leaf)
  | .empty => []
  | .leaf l => [(o, l)]
  | .turn _ => []
  | .repeated e => e.leaves o
  | .group changes e => e.leaves (o.apply changes)
  | .sequence es => leavesOfAll o es
  | .choice es => leavesOfAll o es

def leavesOfAll (o : Options) : List Expr → List (Options × Leaf)
  | [] => []
  | e :: es => e.leaves o ++ leavesOfAll (e.optionsAfter o) es

end

/-! ## Faults -/

inductive Fault where
  /-- It is no pattern, or it has a leaf that cannot be matched. -/
  | noPattern
  /-- It has edges of words that are made of characters. -/
  | wordEdges
  deriving DecidableEq

def Fault.message : Fault → String
  | noPattern => "error building NFA"
  | wordEdges =>
      "unsupported regex feature for DFAs: cannot build DFAs for regexes with Unicode word " ++
        "boundaries; switch to ASCII word boundaries, or heuristically enable Unicode word " ++
        "boundaries or use a different regex engine"

def maxDepth : Nat := 250

def Expr.isSupported (e : Expr) : Bool :=
  e.depth ≤ maxDepth && (e.leaves .initial).all fun (o, l) => l.isSupported o

/-- Whether a pattern asks for edges of words that are made of characters. -/
def Expr.hasWordEdges (e : Expr) : Bool :=
  (e.leaves .initial).any fun (o, l) => o.unicode && l.isWordEdge

def fault? (text : List Char) : Option Fault :=
  match read text with
  | none => some .noPattern
  | some e =>
      if !e.isSupported then some .noPattern
      else if e.hasWordEdges then some .wordEdges
      else none

end RehashChart.Pattern
