import RehashChart.Settings.Tree
import RehashChart.Text.Digits

/-! # Paths in keys

A key of the outermost level may lead further down: names with points between them, and indexes in
brackets. A key that is not written like that is one name as it stands.
-/

namespace RehashChart.Settings.KeyPath

open RehashChart.Settings.Tree (Step)

def isNameChar (c : Char) : Bool := c.isAlphanum || c = ' ' || c = '_' || c = '-'

def isSpace (c : Char) : Bool := c = ' ' || c = '\t'

def dropSpace (text : List Char) : List Char := text.dropWhile isSpace

def readIndex (text : List Char) : Option (Int × List Char) :=
  let (sign, rest) :=
    match text with
    | '-' :: rest => (['-'], rest)
    | rest => ([], rest)
  let digits := rest.takeWhile Char.isDigit
  (Text.readInt64 (sign ++ digits)).map fun i => (i, rest.dropWhile Char.isDigit)

def readSteps (text : List Char) : Option (List Step) :=
  match text with
  | [] => some []
  | '.' :: rest =>
      let name := rest.takeWhile isNameChar
      if name = [] then none
      else (readSteps (rest.dropWhile isNameChar)).map (.key (String.ofList name) :: ·)
  | '[' :: rest =>
      match readIndex (dropSpace rest) with
      | none => none
      | some (i, inner) =>
          match dropSpace inner with
          | ']' :: next =>
              if next.length ≤ rest.length then (readSteps next).map (.index i :: ·) else none
          | _ => none
  | _ => none
termination_by text.length
decreasing_by
  · have := (List.dropWhile_sublist isNameChar (l := rest)).length_le
    simp only [List.length_cons]
    omega
  · simp only [List.length_cons]
    omega

def read? (key : String) : Option (List Step) :=
  let name := key.toList.takeWhile isNameChar
  if name = [] then none
  else (readSteps (key.toList.dropWhile isNameChar)).map (.key (String.ofList name) :: ·)

def ofKey (key : String) : List Step := (read? key).getD [.key key]

end RehashChart.Settings.KeyPath
