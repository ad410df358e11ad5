import RehashChart.Json.Number
import RehashChart.Text.Digits

/-! # Reading JSON

Where a text breaks off, or is no JSON, its value is `broken`, and nothing after it. So whoever
looks for certain values in a certain order can tell whether a value of the wrong kind comes first
or a fault of the text.
-/

namespace RehashChart.Json

open Text (isHexDigit ofBase)

inductive Reading where
  /-- The text goes on in a way that is no JSON. -/
  | broken
  | null
  | boolean (b : Bool)
  | number (n : Numeral)
  /-- A text, or nothing if an escape in it stands for half a character. -/
  | text (s : Option String)
  | list (items : List Reading)
  | object (members : List (Option String × Reading))

def isSpace (c : Char) : Bool := c = ' ' || c = '\n' || c = '\t' || c = '\r'

def dropSpace (text : List Char) : List Char := text.dropWhile isSpace

def expectWord (word text : List Char) : Option (List Char) :=
  if word.isPrefixOf text then some (text.drop word.length) else none

/-! ## Texts -/

/-- A character of a text, or a unit of sixteen bits that an escape spells. -/
inductive Piece where
  | plain (c : Char)
  | unit (n : Nat)

def shortEscape : Char → Option Char
  | '"' => some '"'
  | '\\' => some '\\'
  | '/' => some '/'
  | 'b' => some '\x08'
  | 'f' => some '\x0C'
  | 'n' => some '\n'
  | 'r' => some '\r'
  | 't' => some '\t'
  | _ => none

def readPieces : List Char → Option (List Piece × List Char)
  | [] => none
  | '"' :: rest => some ([], rest)
  | '\\' :: 'u' :: a :: b :: c :: d :: rest =>
      if [a, b, c, d].all isHexDigit then
        (readPieces rest).map fun (pieces, rest) => (.unit (ofBase 16 [a, b, c, d]) :: pieces, rest)
      else none
  | '\\' :: c :: rest =>
      (shortEscape c).bind fun c =>
        (readPieces rest).map fun (pieces, rest) => (.plain c :: pieces, rest)
  | c :: rest =>
      if c < ' ' || c = '\\' then none
      else (readPieces rest).map fun (pieces, rest) => (.plain c :: pieces, rest)

def isHighHalf (n : Nat) : Bool := 0xD800 ≤ n && n ≤ 0xDBFF

def isLowHalf (n : Nat) : Bool := 0xDC00 ≤ n && n ≤ 0xDFFF

def joinHalves (high low : Nat) : Char :=
  Char.ofNat (0x10000 + 0x400 * (high - 0xD800) + (low - 0xDC00))

/-- The characters of a text; none if there is half a character in it. -/
def join : List Piece → Option (List Char)
  | [] => some []
  | .plain c :: rest => (join rest).map (c :: ·)
  | .unit high :: .unit low :: rest =>
      if isHighHalf high then
        if isLowHalf low then (join rest).map (joinHalves high low :: ·) else none
      else if isLowHalf high then none
      else (join (.unit low :: rest)).map (Char.ofNat high :: ·)
  | .unit n :: rest =>
      if isHighHalf n || isLowHalf n then none else (join rest).map (Char.ofNat n :: ·)

/-! ## Numbers -/

def readWhole (text : List Char) : Option (List Char × List Char) :=
  match Binary64.spanDigits text with
  | ([], _) => none
  | ('0' :: _ :: _, _) => none
  | result => some result

def readFraction : List Char → Option (List Char × List Char)
  | '.' :: rest =>
      match Binary64.spanDigits rest with
      | ([], _) => none
      | result => some result
  | text => some ([], text)

def readExponent : List Char → Option (Option (Bool × List Char) × List Char)
  | [] => some (none, [])
  | c :: rest =>
      if c = 'e' || c = 'E' then
        let (negative, rest) := Binary64.spanSign rest
        match Binary64.spanDigits rest with
        | ([], _) => none
        | (digits, rest) => some (some (negative, digits), rest)
      else some (none, c :: rest)

def readNumeral (negative : Bool) (text : List Char) : Option (Numeral × List Char) := do
  let (whole, text) ← readWhole text
  let (fraction, text) ← readFraction text
  let (exponent, text) ← readExponent text
  some (⟨negative, whole, fraction, exponent⟩, text)

/-! ## Values -/

/-- The value that `found` is, or the break there is without it. -/
def orBroken (found : Option (Reading × List Char)) : Reading × List Char :=
  found.getD (.broken, [])

def readFlat : List Char → Option (Reading × List Char)
  | '"' :: rest =>
      (readPieces rest).map fun (pieces, rest) => (.text ((join pieces).map String.ofList), rest)
  | '-' :: rest => (readNumeral true rest).map fun (n, rest) => (.number n, rest)
  | 'n' :: rest => (expectWord ['u', 'l', 'l'] rest).map fun rest => (.null, rest)
  | 't' :: rest => (expectWord ['r', 'u', 'e'] rest).map fun rest => (.boolean true, rest)
  | 'f' :: rest => (expectWord ['a', 'l', 's', 'e'] rest).map fun rest => (.boolean false, rest)
  | text => (readNumeral false text).map fun (n, rest) => (.number n, rest)

mutual

/-- Reads a value with space before it; `fuel` bounds the characters that are looked at. -/
def readValue : Nat → List Char → Reading × List Char
  | 0, _ => (.broken, [])
  | fuel + 1, text =>
      match dropSpace text with
      | '[' :: rest =>
          match dropSpace rest with
          | ']' :: rest => (.list [], rest)
          | rest =>
              let (items, rest) := readItems fuel rest
              (.list items, rest)
      | '\x7b' :: rest =>
          match dropSpace rest with
          | '\x7d' :: rest => (.object [], rest)
          | rest =>
              let (members, rest) := readMembers fuel rest
              (.object members, rest)
      | text => orBroken (readFlat text)

def readItems : Nat → List Char → List Reading × List Char
  | 0, _ => ([.broken], [])
  | fuel + 1, text =>
      let (item, rest) := readValue fuel text
      match dropSpace rest with
      | ']' :: rest => ([item], rest)
      | ',' :: rest =>
          let (items, rest) := readItems fuel rest
          (item :: items, rest)
      | _ => ([item, .broken], [])

def readMembers : Nat → List Char → List (Option String × Reading) × List Char
  | 0, _ => ([(none, .broken)], [])
  | fuel + 1, text =>
      match dropSpace text with
      | '"' :: rest =>
          match readPieces rest with
          | none => ([(none, .broken)], [])
          | some (pieces, rest) =>
              let key := (join pieces).map String.ofList
              match dropSpace rest with
              | ':' :: rest =>
                  let (value, rest) := readValue fuel rest
                  match dropSpace rest with
                  | '\x7d' :: rest => ([(key, value)], rest)
                  | ',' :: rest =>
                      let (members, rest) := readMembers fuel rest
                      ((key, value) :: members, rest)
                  | _ => ([(key, value), (none, .broken)], [])
              | _ => ([(key, .broken)], [])
      | _ => ([(none, .broken)], [])

end

def read (text : List Char) : Reading × List Char := readValue (text.length + 1) text

mutual

def Reading.isSound : Reading → Bool
  | .broken => false
  | .list items => areSound items
  | .object members => areSoundMembers members
  | _ => true

def areSound : List Reading → Bool
  | [] => true
  | item :: rest => item.isSound && areSound rest

def areSoundMembers : List (Option String × Reading) → Bool
  | [] => true
  | (_, value) :: rest => value.isSound && areSoundMembers rest

end

end RehashChart.Json
