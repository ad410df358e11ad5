/-! # Patterns of texts

A group may change the options under which its leaves are read, and so may a part of a sequence, for
what follows it in the same group.
-/

namespace RehashChart.Pattern

/-! ## Options -/

structure Options where
  ignoresCase : Bool
  /-- Whether texts are characters; otherwise they are bytes. -/
  unicode : Bool
  /-- Whether blanks and comments may stand between the parts of a pattern. -/
  verbose : Bool
  deriving DecidableEq

def Options.initial : Options := { ignoresCase := false, unicode := true, verbose := false }

/-- Turns the option with a letter on or off. The other letters are about what a match is, not
about whether there is a matcher. -/
def Options.turn (o : Options) (letter : Char) (isOn : Bool) : Options :=
  if letter = 'i' then { o with ignoresCase := isOn }
  else if letter = 'u' then { o with unicode := isOn }
  else if letter = 'x' then { o with verbose := isOn }
  else o

abbrev Changes := List (Char × Bool)

def Options.apply (o : Options) (changes : Changes) : Options :=
  changes.foldl (fun o (letter, isOn) => o.turn letter isOn) o

/-! ## Sets of characters -/

/-- A character of a pattern. -/
structure Sign where
  char : Char
  /-- Whether it is written as a code of two digits: where texts are bytes, that is a byte. -/
  isByteCode : Bool
  deriving DecidableEq

inductive SetItem where
  | sign (s : Sign)
  | range (low high : Sign)
  /-- A set with a name between colons; all such sets are of ASCII characters. -/
  | named (negated : Bool)
  /-- A set with a letter of its own, such as the digits. -/
  | shorthand (negated : Bool)
  deriving DecidableEq

inductive SetOperator where
  | both
  | onlyLeft
  | onlyOne
  deriving DecidableEq

/-- A set of characters as it is written. -/
inductive CharSet where
  | empty
  | item (i : SetItem)
  | brackets (negated : Bool) (inner : CharSet)
  | union (sets : List CharSet)
  | combined (op : SetOperator) (left right : CharSet)

/-- The set with what several sets have. -/
def CharSet.ofList : List CharSet → CharSet
  | [] => .empty
  | [set] => set
  | sets => .union sets

/-! ## Patterns -/

inductive Leaf where
  | sign (s : Sign)
  /-- Any character, but for a line end. -/
  | any
  | shorthand (negated : Bool)
  | set (s : CharSet)
  /-- The start or the end of a line or of the text. -/
  | edge
  /-- The start or the end of a word, or a place that is neither. -/
  | wordEdge

inductive Expr where
  | empty
  | leaf (l : Leaf)
  /-- A change of options, up to the end of the group that it stands in. -/
  | turn (changes : Changes)
  | repeated (e : Expr)
  | group (changes : Changes) (e : Expr)
  | sequence (es : List Expr)
  | choice (es : List Expr)

def Expr.inSequence : List Expr → Expr
  | [] => .empty
  | [e] => e
  | es => .sequence es

def Expr.outOf : List Expr → Expr
  | [] => .empty
  | [e] => e
  | es => .choice es

/-! ## Nesting -/

mutual

def CharSet.depth : CharSet → Nat
  | .empty => 0
  | .item _ => 0
  | .brackets _ inner => inner.depth + 1
  | .union sets => depthOfSets sets + 1
  | .combined _ left right => max left.depth right.depth + 1

def depthOfSets : List CharSet → Nat
  | [] => 0
  | set :: sets => max set.depth (depthOfSets sets)

end

def Leaf.depth : Leaf → Nat
  | .set s => s.depth
  | _ => 0

mutual

def Expr.depth : Expr → Nat
  | .empty => 0
  | .leaf l => l.depth
  | .turn _ => 0
  | .repeated e => e.depth + 1
  | .group _ e => e.depth + 1
  | .sequence es => depthOfExprs es + 1
  | .choice es => depthOfExprs es + 1

def depthOfExprs : List Expr → Nat
  | [] => 0
  | e :: es => max e.depth (depthOfExprs es)

end

end RehashChart.Pattern
