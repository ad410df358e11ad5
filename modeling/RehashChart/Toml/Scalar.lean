import RehashChart.Toml.Value

/-! # Scalars without quotes

A scalar is read as one word, and all of the word has to fit.
-/

namespace RehashChart.Toml

open Text (isHexDigit ofBase)

/-- The characters that a scalar without quotes consists of. -/
def isWordChar (c : Char) : Bool :=
  c.isAlphanum || c = '_' || c = '+' || c = '-' || c = '.' || c = ':'

/-! ## Numbers -/

def digitGroups (isDigit : Char → Bool) : List Char → Option (List Char)
  | [] => none
  | [c] => if isDigit c then some [c] else none
  | c :: '_' :: rest => if isDigit c then (digitGroups isDigit rest).map (c :: ·) else none
  | c :: rest => if isDigit c then (digitGroups isDigit rest).map (c :: ·) else none

/-- Decimal digits in groups that do not start with a needless zero. -/
def wholeDigits (word : List Char) : Option (List Char) :=
  match digitGroups Char.isDigit word with
  | some ('0' :: _ :: _) => none
  | digits => digits

def isOctalDigit (c : Char) : Bool := '0' ≤ c && c ≤ '7'

def isBinaryDigit (c : Char) : Bool := c = '0' || c = '1'

def boundedInteger (n : Int) : Option Int :=
  if -(Text.maxInt64 + 1 : Int) ≤ n ∧ n ≤ Text.maxInt64 then some n else none

def readBase (base : Nat) (isDigit : Char → Bool) (word : List Char) : Option Int :=
  (digitGroups isDigit word).bind fun digits => boundedInteger (ofBase base digits)

/-- Only a decimal integer may have a sign. -/
def readInteger : List Char → Option Int
  | '0' :: 'x' :: word => readBase 16 isHexDigit word
  | '0' :: 'o' :: word => readBase 8 isOctalDigit word
  | '0' :: 'b' :: word => readBase 2 isBinaryDigit word
  | word =>
      let (negative, word) := Binary64.spanSign word
      (wholeDigits word).bind fun digits =>
        let n : Int := ofBase 10 digits
        boundedInteger (if negative then -n else n)

def isDigitOrGap (c : Char) : Bool := c.isDigit || c = '_'

def readFraction : List Char → Option (Option (List Char) × List Char)
  | '.' :: word =>
      (digitGroups Char.isDigit (word.takeWhile isDigitOrGap)).map fun digits =>
        (some digits, word.dropWhile isDigitOrGap)
  | word => some (none, word)

/-- The power of ten that ends a number, if there is one; zeros may stand before it. -/
def readPower : List Char → Option (Option Int)
  | [] => some none
  | c :: word =>
      if c = 'e' || c = 'E' then
        let (negative, word) := Binary64.spanSign word
        (digitGroups Char.isDigit word).map fun digits =>
          let n : Int := ofBase 10 digits
          some (if negative then -n else n)
      else none

def readDecimal (negative : Bool) (word : List Char) : Option Decimal := do
  let whole ← wholeDigits (word.takeWhile isDigitOrGap)
  let (fraction, word) ← readFraction (word.dropWhile isDigitOrGap)
  let power ← readPower word
  if fraction = none ∧ power = none then none
  else
    let fraction := fraction.getD []
    some ⟨negative, ofBase 10 (whole ++ fraction), power.getD 0 - fraction.length⟩

/-- A number that is not an integer. One too large for a number is refused, one too small is not:
it is a negative infinity. -/
def readFloat (word : List Char) : Option Binary64 :=
  let (negative, word) := Binary64.spanSign word
  if word = ['i', 'n', 'f'] then some (.infinity negative)
  else if word = ['n', 'a', 'n'] then some .nan
  else
    (readDecimal negative word).bind fun d =>
      let x := d.toBinary64
      if x = .infinity false then none else some x

/-! ## Dates and times -/

/-- Two digits that make a number of at most `last`. -/
def twoDigits (last : Nat) (a b : Char) : Option Nat :=
  if a.isDigit && b.isDigit then
    let n := ofBase 10 [a, b]
    if n ≤ last then some n else none
  else none

def isLeapYear (year : Nat) : Bool := year % 4 = 0 && (year % 100 ≠ 0 || year % 400 = 0)

def daysIn (year month : Nat) : Nat :=
  if month = 2 then (if isLeapYear year then 29 else 28)
  else if month = 4 ∨ month = 6 ∨ month = 9 ∨ month = 11 then 30
  else 31

def readDate : List Char → Option (Date × List Char)
  | a :: b :: c :: d :: '-' :: e :: f :: '-' :: g :: h :: rest => do
      let century ← twoDigits 99 a b
      let year ← twoDigits 99 c d
      let month ← twoDigits 12 e f
      let day ← twoDigits 31 g h
      let year := 100 * century + year
      if 1 ≤ month ∧ 1 ≤ day ∧ day ≤ daysIn year month then some (⟨year, month, day⟩, rest)
      else none
  | _ => none

/-- The nanoseconds in the digits of a fraction; digits beyond the ninth are dropped. -/
def nanoseconds (digits : List Char) : Nat :=
  let kept := digits.take 9
  ofBase 10 kept * Nat.pow 10 (9 - kept.length)

def readTime : List Char → Option (Time × List Char)
  | a :: b :: ':' :: c :: d :: ':' :: e :: f :: rest => do
      let hour ← twoDigits 23 a b
      let minute ← twoDigits 59 c d
      let second ← twoDigits 60 e f
      match rest with
      | '.' :: rest =>
          let (digits, rest) := Binary64.spanDigits rest
          if digits = [] then none else some (⟨hour, minute, second, nanoseconds digits⟩, rest)
      | rest => some (⟨hour, minute, second, 0⟩, rest)
  | _ => none

def readOffset : List Char → Option (Option Offset)
  | [] => some none
  | ['Z'] => some (some .universal)
  | ['z'] => some (some .universal)
  | [sign, a, b, ':', c, d] =>
      if sign = '+' || sign = '-' then do
        let hours ← twoDigits 23 a b
        let minutes ← twoDigits 59 c d
        let count : Int := 60 * hours + minutes
        some (some (.minutes (if sign = '-' then -count else count)))
      else none
  | _ => none

/-- A date, a time, or both with a `T` or one space between them. -/
def readMoment (word : List Char) : Option Moment :=
  match readDate word with
  | none =>
      match readTime word with
      | some (time, []) => some (.clock time)
      | _ => none
  | some (date, []) => some (.day date)
  | some (date, separator :: rest) =>
      if separator = 'T' || separator = 't' || separator = ' ' then do
        let (time, rest) ← readTime rest
        let offset ← readOffset rest
        some (.instant date time offset)
      else none

/-! ## Words -/

def readBoolean (word : List Char) : Option Bool :=
  if word = ['t', 'r', 'u', 'e'] then some true
  else if word = ['f', 'a', 'l', 's', 'e'] then some false
  else none

def readWord (word : List Char) : Option Value :=
  (readBoolean word).map .boolean <|> (readInteger word).map .integer <|>
    (readFloat word).map .float <|> (readMoment word).map .moment

/-- The word that a text starts with, and what follows it. A date takes in the time that stands
one space after it. -/
def spanWord (text : List Char) : List Char × List Char :=
  let word := text.takeWhile isWordChar
  match readDate word, text.dropWhile isWordChar with
  | some (_, []), ' ' :: rest =>
      match rest with
      | c :: _ =>
          if c.isDigit then (word ++ ' ' :: rest.takeWhile isWordChar, rest.dropWhile isWordChar)
          else (word, ' ' :: rest)
      | [] => (word, [' '])
  | _, rest => (word, rest)

def readScalar (text : List Char) : Option (Value × List Char) :=
  let (word, rest) := spanWord text
  (readWord word).map fun value => (value, rest)

end RehashChart.Toml
