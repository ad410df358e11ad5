import RehashChart.Toml.Table
import RehashChart.Toml.Text

/-! # Reading a settings document

Lists may span lines, tables in braces may not. `read` either reads all of a text or nothing.
-/

namespace RehashChart.Toml

/-! ## Space and comments -/

def dropSpace (text : List Char) : List Char := text.dropWhile isSpace

def dropComment : List Char → List Char
  | '#' :: rest => rest.dropWhile isPlain
  | rest => rest

def dropEndOfLine : List Char → Option (List Char)
  | [] => some []
  | '\n' :: rest => some rest
  | '\r' :: '\n' :: rest => some rest
  | _ => none

def endLine (text : List Char) : Option (List Char) := dropEndOfLine (dropComment (dropSpace text))

/-- The text without the space, line ends and comments that it starts with; `commenting` says that
it starts in a comment. -/
def dropBlank (commenting : Bool) : List Char → List Char
  | [] => []
  | '\r' :: '\n' :: rest => dropBlank false rest
  | '\n' :: rest => dropBlank false rest
  | c :: rest =>
      if commenting then (if isPlain c then dropBlank true rest else c :: rest)
      else if isSpace c then dropBlank false rest
      else if c = '#' then dropBlank true rest
      else c :: rest

def skipBlank (text : List Char) : List Char := dropBlank false text

def expect (c : Char) : List Char → Option (List Char)
  | [] => none
  | d :: rest => if c = d then some rest else none

/-! ## Keys -/

def isKeyChar (c : Char) : Bool := c.isAlphanum || c = '_' || c = '-'

def readSimpleKey : Reader String
  | '"' :: rest => (readBasic rest).map fun (key, rest) => (String.ofList key, rest)
  | '\'' :: rest => (readLiteral rest).map fun (key, rest) => (String.ofList key, rest)
  | text =>
      let key := text.takeWhile isKeyChar
      if key = [] then none else some (String.ofList key, text.dropWhile isKeyChar)

/-- How many names a dotted key may have, less one. -/
def maxDepth : Nat := 79

def readNames : Nat → String → Reader (List String × String)
  | 0, last, text => if (expect '.' text).isSome then none else some (([], last), text)
  | more + 1, last, text =>
      match expect '.' text with
      | none => some (([], last), text)
      | some text => do
          let (key, text) ← readSimpleKey (dropSpace text)
          let ((path, final), text) ← readNames more key (dropSpace text)
          some ((last :: path, final), text)

/-- Reads a dotted key, with space around each of its names: all names but the last, and the
last. -/
def readKey (text : List Char) : Option ((List String × String) × List Char) := do
  let (key, text) ← readSimpleKey (dropSpace text)
  readNames (maxDepth - 1) key (dropSpace text)

/-! ## Values -/

def readAssignment (value : Reader Value) : Reader Assignment := fun text => do
  let ((path, key), text) ← readKey text
  let text ← expect '=' text
  let (v, text) ← value (dropSpace text)
  some (⟨path, key, v⟩, dropSpace text)

def readItems (value : Reader Value) (text : List Char) : Option (List Value × List Char) :=
  match expect ']' text with
  | some rest => some ([], rest)
  | none =>
      match value text with
      | none => none
      | some (v, rest) =>
          match skipBlank rest with
          | ']' :: rest => some ([v], rest)
          | ',' :: rest =>
              let next := skipBlank rest
              if next.length < text.length then
                (readItems value next).map fun (items, rest) => (v :: items, rest)
              else none
          | _ => none
termination_by text.length

def readAssignments (value : Reader Value) (text : List Char) :
    Option (List Assignment × List Char) :=
  match readAssignment value text with
  | none => none
  | some (a, rest) =>
      match rest with
      | '\x7d' :: rest => some ([a], rest)
      | ',' :: next =>
          if next.length < text.length then
            (readAssignments value next).map fun (assignments, rest) => (a :: assignments, rest)
          else none
      | _ => none
termination_by text.length

def readBraces (value : Reader Value) (text : List Char) : Option (Value × List Char) :=
  match dropSpace text with
  | '\x7d' :: rest => some (.table [], rest)
  | text => do
      let (assignments, rest) ← readAssignments value text
      let draft ← Draft.assignAll [] assignments
      some (.table (toEntries draft), rest)

/-- Reads a value that nests lists and tables up to `depth` deep. -/
def readValue : Nat → Reader Value
  | 0, text => readFlat text
  | depth + 1, text =>
      match text with
      | '[' :: rest =>
          (readItems (readValue depth) (skipBlank rest)).map fun (items, rest) =>
            (.list items, rest)
      | '\x7b' :: rest => readBraces (readValue depth) rest
      | text => readFlat text
where
  readFlat (text : List Char) : Option (Value × List Char) :=
    match text with
    | '"' :: _ => (readText text).map fun (s, rest) => (.text (String.ofList s), rest)
    | '\'' :: _ => (readText text).map fun (s, rest) => (.text (String.ofList s), rest)
    | text => readScalar text

/-! ## Documents -/

/-- What stands on a line of its own. -/
inductive Line where
  | header (path : List String) (key : String)
  /-- A header in double brackets. -/
  | rowHeader (path : List String) (key : String)
  | assignment (a : Assignment)

def readLine : Reader Line
  | '[' :: '[' :: text => do
      let ((path, key), text) ← readKey text
      let text ← expect ']' text
      let text ← expect ']' text
      some (.rowHeader path key, text)
  | '[' :: text => do
      let ((path, key), text) ← readKey text
      let text ← expect ']' text
      some (.header path key, text)
  | text => (readAssignment (readValue maxDepth) text).map fun (a, text) => (.assignment a, text)

def readLines (text : List Char) : Option (List Line) :=
  let start := dropSpace text
  match start with
  | [] => some []
  | c :: _ =>
      if c = '\n' || c = '\r' || c = '#' then
        match endLine start with
        | some rest => if rest.length < text.length then readLines rest else none
        | none => none
      else
        match (readLine start).bind fun (line, rest) => (endLine rest).map (line, ·) with
        | some (line, rest) =>
            if rest.length < text.length then (readLines rest).map (line :: ·) else none
        | none => none
termination_by text.length

def spanAssignments : List Line → List Assignment × List Line
  | .assignment a :: lines =>
      let (assignments, rest) := spanAssignments lines
      (a :: assignments, rest)
  | lines => ([], lines)

theorem spanAssignments_length (lines : List Line) :
    (spanAssignments lines).2.length ≤ lines.length := by
  induction lines with
  | nil => simp [spanAssignments]
  | cons line lines ih =>
      cases line <;> simp [spanAssignments]
      omega

def addSections (draft : Draft) (lines : List Line) : Option Draft :=
  match lines with
  | [] => some draft
  | .assignment _ :: _ => none
  | .header path key :: lines =>
      (draft.define path key (spanAssignments lines).1).bind fun draft =>
        addSections draft (spanAssignments lines).2
  | .rowHeader path key :: lines =>
      (draft.append path key (spanAssignments lines).1).bind fun draft =>
        addSections draft (spanAssignments lines).2
termination_by lines.length
decreasing_by
  · have := spanAssignments_length lines
    simp only [List.length_cons]
    omega
  · have := spanAssignments_length lines
    simp only [List.length_cons]
    omega

def build (lines : List Line) : Option Entries := do
  let (assignments, lines) := spanAssignments lines
  let draft ← Draft.assignAll [] assignments
  let draft ← addSections draft lines
  some (toEntries draft)

/-! ## Moments as tables -/

/-- The key that makes a table stand for a moment, if it is the first one. -/
def momentKey : String := "$__toml_private_datetime"

def isMoment : Entries → Bool
  | [] => false
  | (key, _) :: _ => key = momentKey

/-- The moment that a table stands for; the other keys of the table do not matter. -/
def momentIn : Entries → Option Moment
  | (_, .text s) :: _ => readMoment s.toList
  | _ => none

mutual

def settle : Value → Option Value
  | .list items => (settleItems items).map .list
  | .table entries =>
      if isMoment entries then (momentIn entries).map .moment
      else (settleEntries entries).map .table
  | v => some v

def settleItems : List Value → Option (List Value)
  | [] => some []
  | v :: rest => do return (← settle v) :: (← settleItems rest)

def settleEntries : List (String × Value) → Option (List (String × Value))
  | [] => some []
  | (key, v) :: rest => do return (key, ← settle v) :: (← settleEntries rest)

end

def dropMark : List Char → List Char
  | '\uFEFF' :: rest => rest
  | rest => rest

/-- Reads a document. The document itself cannot stand for a moment. -/
def read (text : String) : Option Entries := do
  let entries ← build (← readLines (dropMark text.toList))
  if isMoment entries then none else settleEntries entries

end RehashChart.Toml
