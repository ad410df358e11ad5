/-! # Splitting text

The parts of a text between the occurrences of a character, empty ones too, and before and after an
offset that counts bytes; a character that stands on both sides of the offset belongs to neither
part.
-/

namespace RehashChart.Text

def splitAt (separator : Char) : List Char → List (List Char)
  | [] => [[]]
  | c :: rest =>
      if c = separator then [] :: splitAt separator rest
      else
        match splitAt separator rest with
        | part :: parts => (c :: part) :: parts
        | [] => [[c]]

def splitText (separator : Char) (text : String) : List String :=
  (splitAt separator text.toList).map String.ofList

/-! ## Offsets in bytes -/

def byteLength : List Char → Nat
  | [] => 0
  | c :: rest => c.utf8Size + byteLength rest

def takeBytes (n : Nat) : List Char → List Char
  | [] => []
  | c :: rest => if c.utf8Size ≤ n then c :: takeBytes (n - c.utf8Size) rest else []

def dropBytes (n : Nat) : List Char → List Char
  | [] => []
  | c :: rest => if n = 0 then c :: rest else dropBytes (n - c.utf8Size) rest

end RehashChart.Text
