import RehashChart.Binary64.Shortest

/-! # Writing JSON -/

namespace RehashChart.Json

inductive Value where
  | boolean (b : Bool)
  | natural (n : Nat)
  | number (x : Binary64)
  | text (s : String)
  | object (members : List (String × Value))

/-- The text of a number: positional where the point is within sixteen digits, or up to four zeros
before them. A tie goes to the even digit. -/
def numberText : Binary64 → String
  | .finite negative m e _ =>
      Binary64.signed negative <|
        if m = 0 then ['0', '.', '0']
        else
          let d := Binary64.shortest .even m e
          if -5 < d.point ∧ d.point ≤ 16 then d.positional ['.', '0'] else d.scientific
  | _ => "null"

def controlDigits (c : Char) : List Char :=
  let digits := Nat.toDigits 16 c.toNat
  List.replicate (2 - digits.length) '0' ++ digits

def escapedChar (c : Char) : List Char :=
  if c = '"' then ['\\', '"']
  else if c = '\\' then ['\\', '\\']
  else if c = '\x08' then ['\\', 'b']
  else if c = '\x0C' then ['\\', 'f']
  else if c = '\n' then ['\\', 'n']
  else if c = '\r' then ['\\', 'r']
  else if c = '\t' then ['\\', 't']
  else if c < ' ' then ['\\', 'u', '0', '0'] ++ controlDigits c
  else [c]

def textInQuotes (s : String) : String :=
  String.ofList ('"' :: s.toList.flatMap escapedChar ++ ['"'])

def Value.flat : Value → String
  | boolean b => if b then "true" else "false"
  | natural n => toString n
  | number x => numberText x
  | text s => textInQuotes s
  | object _ => "\x7b\x7d"

mutual

def Value.compact : Value → String
  | .object members => "\x7b" ++ compactMembers members ++ "\x7d"
  | value => value.flat

def compactMembers : List (String × Value) → String
  | [] => ""
  | [(name, value)] => textInQuotes name ++ ":" ++ value.compact
  | (name, value) :: rest =>
      textInQuotes name ++ ":" ++ value.compact ++ "," ++ compactMembers rest

end

def margin (depth : Nat) : String := String.ofList (List.replicate (2 * depth) ' ')

mutual

def Value.pretty (depth : Nat) : Value → String
  | .object [] => "\x7b\x7d"
  | .object members =>
      "\x7b\n" ++ prettyMembers (depth + 1) members ++ "\n" ++ margin depth ++ "\x7d"
  | value => value.flat

def prettyMembers (depth : Nat) : List (String × Value) → String
  | [] => ""
  | [(name, value)] => margin depth ++ textInQuotes name ++ ": " ++ value.pretty depth
  | (name, value) :: rest =>
      margin depth ++ textInQuotes name ++ ": " ++ value.pretty depth ++ ",\n" ++
        prettyMembers depth rest

end

end RehashChart.Json
