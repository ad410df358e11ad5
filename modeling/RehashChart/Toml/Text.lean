import RehashChart.Toml.Scalar

/-! # Text in quotes

Control characters have to be escaped, a tab apart, and a line end inside a text is a line feed
however the document writes it.
-/

namespace RehashChart.Toml

open Text (isHexDigit ofBase)

/-- The characters that may stand for themselves in a text or a comment. -/
def isPlain (c : Char) : Bool := c = '\t' || (' ' ≤ c && c ≠ '\x7F')

def isSpace (c : Char) : Bool := c = ' ' || c = '\t'

/-- Reads something at the start of a text; the rest of the text comes with it. -/
abbrev Reader (α : Type) := List Char → Option (α × List Char)

def escapedChar (digits : List Char) : Option Char :=
  if digits.all isHexDigit then
    let code := ofBase 16 digits
    if h : code.isValidChar then some (Char.ofNatAux code h) else none
  else none

/-- What a single letter stands for after a backslash. -/
def shortEscape : Char → Option Char
  | 'b' => some '\x08'
  | 't' => some '\t'
  | 'n' => some '\n'
  | 'f' => some '\x0C'
  | 'r' => some '\r'
  | '"' => some '"'
  | '\\' => some '\\'
  | _ => none

def prepend (c : Char) (result : List Char × List Char) : List Char × List Char :=
  (c :: result.1, result.2)

def readBasic : Reader (List Char)
  | [] => none
  | '"' :: rest => some ([], rest)
  | '\\' :: 'u' :: a :: b :: c :: d :: rest =>
      (escapedChar [a, b, c, d]).bind fun x => (readBasic rest).map (prepend x)
  | '\\' :: 'U' :: a :: b :: c :: d :: e :: f :: g :: h :: rest =>
      (escapedChar [a, b, c, d, e, f, g, h]).bind fun x => (readBasic rest).map (prepend x)
  | '\\' :: c :: rest => (shortEscape c).bind fun x => (readBasic rest).map (prepend x)
  | c :: rest => if isPlain c && c ≠ '\\' then (readBasic rest).map (prepend c) else none

def readLiteral : Reader (List Char)
  | [] => none
  | '\'' :: rest => some ([], rest)
  | c :: rest => if isPlain c then (readLiteral rest).map (prepend c) else none

/-- What follows three quotes: up to two more of them still belong to the text. -/
def closeText (quote : Char) : List Char → List Char × List Char
  | a :: b :: rest =>
      if a = quote then
        if b = quote then ([quote, quote], rest) else ([quote], b :: rest)
      else ([], a :: b :: rest)
  | [a] => if a = quote then ([quote], []) else ([], [a])
  | [] => ([], [])

def startsLineEnd (text : List Char) : Bool :=
  match text.dropWhile isSpace with
  | '\n' :: _ => true
  | '\r' :: '\n' :: _ => true
  | _ => false

/-- The rest of a text of several lines in double quotes. A backslash at the end of a line takes
away the line end and all space up to the next character; `folding` says that one has. -/
def readBasicLines (folding : Bool) : Reader (List Char)
  | [] => none
  | '\r' :: '\n' :: rest =>
      if folding then readBasicLines true rest
      else (readBasicLines false rest).map (prepend '\n')
  | '\n' :: rest =>
      if folding then readBasicLines true rest
      else (readBasicLines false rest).map (prepend '\n')
  | '"' :: '"' :: '"' :: rest => some (closeText '"' rest)
  | '\\' :: 'u' :: a :: b :: c :: d :: rest =>
      (escapedChar [a, b, c, d]).bind fun x => (readBasicLines false rest).map (prepend x)
  | '\\' :: 'U' :: a :: b :: c :: d :: e :: f :: g :: h :: rest =>
      (escapedChar [a, b, c, d, e, f, g, h]).bind fun x =>
        (readBasicLines false rest).map (prepend x)
  | '\\' :: c :: rest =>
      if startsLineEnd (c :: rest) then readBasicLines true (c :: rest)
      else (shortEscape c).bind fun x => (readBasicLines false rest).map (prepend x)
  | c :: rest =>
      if folding && isSpace c then readBasicLines true rest
      else if isPlain c && c ≠ '\\' then (readBasicLines false rest).map (prepend c)
      else none

def readLiteralLines : Reader (List Char)
  | [] => none
  | '\r' :: '\n' :: rest => (readLiteralLines rest).map (prepend '\n')
  | '\n' :: rest => (readLiteralLines rest).map (prepend '\n')
  | '\'' :: '\'' :: '\'' :: rest => some (closeText '\'' rest)
  | c :: rest => if isPlain c then (readLiteralLines rest).map (prepend c) else none

def dropLineEnd : List Char → List Char
  | '\n' :: rest => rest
  | '\r' :: '\n' :: rest => rest
  | rest => rest

def readText : Reader (List Char)
  | '"' :: '"' :: '"' :: rest => readBasicLines false (dropLineEnd rest)
  | '"' :: rest => readBasic rest
  | '\'' :: '\'' :: '\'' :: rest => readLiteralLines (dropLineEnd rest)
  | '\'' :: rest => readLiteral rest
  | _ => none

end RehashChart.Toml
