import RehashChart.Pattern.Bracket
import RehashChart.Text.Alphabetic

/-! # Reading patterns

`read` either reads all of a text or nothing. Counted repetitions are not read: what has a pattern
as a value has no room for the brace that closes one.
-/

namespace RehashChart.Pattern

structure Context where
  options : Options
  /-- The names that groups have already. -/
  names : List (List Char)

/-! ## Groups -/

def isGroupName : List Char → Bool
  | [] => false
  | first :: rest =>
      (first = '_' || Text.isAlphabetic first) &&
        rest.all fun c => Text.isAlphanumeric c || "_.[]".contains c

/-- Whether a text lists options, each of them once, those to be turned off after a minus sign. -/
def isOptionList (text : List Char) : Bool :=
  text.all ("imsuUxR-".contains ·) && text.all (text.count · = 1) && text.getLast? ≠ some '-'

def changesOf (text : List Char) : Changes :=
  (text.takeWhile (· ≠ '-')).map (·, true) ++ ((text.dropWhile (· ≠ '-')).drop 1).map (·, false)

inductive GroupStart where
  | opened (changes : Changes)
  | turned (changes : Changes)

def readGroupName (context : Context) (text : List Char) :
    Option (GroupStart × Context × List Char) :=
  let name := text.takeWhile (· ≠ '>')
  match text.dropWhile (· ≠ '>') with
  | '>' :: rest =>
      if isGroupName name && !context.names.contains name then
        some (.opened [], { context with names := name :: context.names }, rest)
      else none
  | _ => none

def readOptions (context : Context) (text : List Char) :
    Option (GroupStart × Context × List Char) :=
  let letters := text.takeWhile fun c => c ≠ ':' && c ≠ ')'
  if !isOptionList letters then none
  else
    match text.dropWhile fun c => c ≠ ':' && c ≠ ')' with
    | ':' :: rest => some (.opened (changesOf letters), context, rest)
    | ')' :: rest =>
        if letters = [] then none else some (.turned (changesOf letters), context, rest)
    | _ => none

def readGroupStart (context : Context) (text : List Char) :
    Option (GroupStart × Context × List Char) :=
  match toSign context.options.verbose text with
  | '?' :: 'P' :: '<' :: rest => readGroupName context rest
  | '?' :: '<' :: rest => readGroupName context rest
  | '?' :: rest => readOptions context rest
  | rest => some (.opened [], context, rest)

/-! ## Patterns -/

/-- The part of a pattern under way: the finished choices, and the sequence since then, both with
the last one first. -/
structure Draft where
  choices : List Expr
  parts : List Expr

def Draft.empty : Draft := ⟨[], []⟩

def Draft.add (d : Draft) (e : Expr) : Draft := { d with parts := e :: d.parts }

def Draft.nextChoice (d : Draft) : Draft :=
  ⟨.inSequence d.parts.reverse :: d.choices, []⟩

def Draft.finish (d : Draft) : Expr := .outOf d.nextChoice.choices.reverse

/-- Repeats the last part; a change of options cannot be repeated. -/
def Draft.repeatLast? (d : Draft) : Option Draft :=
  match d.parts with
  | [] => none
  | .turn _ :: _ => none
  | e :: parts => some { d with parts := .repeated e :: parts }

def dropLazy : List Char → List Char
  | '?' :: rest => rest
  | rest => rest

def readLeaf (verbose : Bool) : List Char → Option (Leaf × List Char)
  | '.' :: rest => some (.any, rest)
  | '^' :: rest => some (.edge, rest)
  | '$' :: rest => some (.edge, rest)
  | '[' :: rest => (readSet verbose rest).map fun (set, rest) => (.set set, rest)
  | text => readSign verbose text

/-- Reads the rest of a group up to the parenthesis that closes it, or the rest of the text. -/
def readFrom : Nat → Context → Draft → List Char → Option (Expr × Context × List Char)
  | 0, _, _, _ => none
  | fuel + 1, context, draft, text =>
      match toSign context.options.verbose text with
      | [] => some (draft.finish, context, [])
      | c :: rest =>
          if c = ')' then some (draft.finish, context, c :: rest)
          else if c = '(' then
            match readGroupStart context rest with
            | none => none
            | some (.turned changes, context, rest) =>
                let options := context.options.apply changes
                readFrom fuel { context with options } (draft.add (.turn changes)) rest
            | some (.opened changes, inside, rest) =>
                let options := context.options.apply changes
                match readFrom fuel { inside with options } .empty rest with
                | some (e, inside, ')' :: rest) =>
                    readFrom fuel { context with names := inside.names }
                      (draft.add (.group changes e)) rest
                | _ => none
          else if c = '|' then readFrom fuel context draft.nextChoice rest
          else if c = '?' || c = '*' || c = '+' then
            match draft.repeatLast? with
            | some draft => readFrom fuel context draft (dropLazy rest)
            | none => none
          else if c = '\x7b' then none
          else
            match readLeaf context.options.verbose (c :: rest) with
            | some (leaf, rest) => readFrom fuel context (draft.add (.leaf leaf)) rest
            | none => none

def read (text : List Char) : Option Expr :=
  match readFrom (text.length + 1) ⟨.initial, []⟩ .empty text with
  | some (e, _, []) => some e
  | _ => none

end RehashChart.Pattern
