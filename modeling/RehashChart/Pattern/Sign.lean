import RehashChart.Pattern.Basic
import RehashChart.Text.Blank
import RehashChart.Text.Digits

/-! # Signs of patterns

In a verbose pattern, blanks and comments may stand between any two signs, and between the digits of
a code; a comment starts with a number sign and ends with the line.
-/

namespace RehashChart.Pattern

/-! ## Blanks and comments -/

/-- The text without the blanks and comments that it starts with; `commenting` says that it starts
in a comment. -/
def dropBlanks (commenting : Bool) : List Char → List Char
  | [] => []
  | c :: rest =>
      if commenting then dropBlanks (c ≠ '\n') rest
      else if Text.isBlank c then dropBlanks false rest
      else if c = '#' then dropBlanks true rest
      else c :: rest

def toSign (verbose : Bool) (text : List Char) : List Char :=
  if verbose then dropBlanks false text else text

/-- The first character that is neither a blank nor the first number sign. -/
def afterBlanks? (commented : Bool) : List Char → Option Char
  | [] => none
  | c :: rest =>
      if Text.isBlank c then afterBlanks? commented rest
      else if c = '#' && !commented then afterBlanks? true rest
      else some c

/-- The character ahead that decides what a minus sign before it means. Looking ahead does not see
where a comment ends; with nothing but blanks ahead, it is the first of them. -/
def ahead? (verbose : Bool) (text : List Char) : Option Char :=
  if verbose then afterBlanks? false text <|> text.head? else text.head?

/-! ## What a backslash makes of a character -/

def readDigits (verbose : Bool) : Nat → List Char → Option (List Char × List Char)
  | 0, text => some ([], text)
  | count + 1, text =>
      match toSign verbose text with
      | [] => none
      | c :: rest =>
          if Text.isHexDigit c then
            (readDigits verbose count rest).map fun (digits, rest) => (c :: digits, rest)
          else none

def readCode (verbose : Bool) (count : Nat) (text : List Char) : Option (Leaf × List Char) := do
  let (digits, rest) ← readDigits verbose count text
  let code := Text.ofBase 16 digits
  if h : code.isValidChar then some (.sign ⟨Char.ofNatAux code h, count = 2⟩, rest) else none

def letterChars : List (Char × Char) :=
  [('a', '\x07'), ('f', '\x0C'), ('t', '\t'), ('n', '\n'), ('r', '\r'), ('v', '\x0B')]

/-- What a character stands for, if it is not the start of a code. A letter or a digit without a
meaning is none, nor is a character beyond ASCII. -/
def escaped? (c : Char) : Option Leaf :=
  if "dsw".contains c then some (.shorthand false)
  else if "DSW".contains c then some (.shorthand true)
  else if "Az".contains c then some .edge
  else if "bB<>".contains c then some .wordEdge
  else if c.isAlphanum then (letterChars.lookup c).map fun x => .sign ⟨x, false⟩
  else if c ≤ '\x7F' then some (.sign ⟨c, false⟩)
  else none

def readEscaped (verbose : Bool) : List Char → Option (Leaf × List Char)
  | [] => none
  | c :: rest =>
      if c = 'x' then readCode verbose 2 rest
      else if c = 'u' then readCode verbose 4 rest
      else if c = 'U' then readCode verbose 8 rest
      else (escaped? c).map (·, rest)

def readSign (verbose : Bool) : List Char → Option (Leaf × List Char)
  | [] => none
  | '\\' :: rest => readEscaped verbose rest
  | c :: rest => some (.sign ⟨c, false⟩, rest)

end RehashChart.Pattern
