import RehashChart.Text.Split

/-! # Reports of failures -/

namespace RehashChart

def indent (indentation line : String) : String := if line = "" then "" else indentation ++ line

def indentLines (first rest text : String) : List String :=
  match Text.splitText '\n' text with
  | [] => []
  | line :: lines => indent first line :: lines.map (indent rest)

/-- A number in front of a cause, in four columns. -/
def numbered (i : Nat) : String :=
  let digits := toString i
  String.ofList (List.replicate (4 - digits.length) ' ') ++ digits ++ ": "

def causeLines : List String → List String
  | [] => []
  | [cause] => indentLines "    " "    " cause
  | causes => (causes.zipIdx).flatMap fun (cause, i) => indentLines (numbered i) "      " cause

def reportLines (message : String) (causes : List String) : List String :=
  Text.splitText '\n' ("Error: " ++ message) ++
    if causes = [] then [] else ["", "Caused by:"] ++ causeLines causes

end RehashChart
