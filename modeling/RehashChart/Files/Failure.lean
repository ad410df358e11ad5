/-! # Failures of file operations -/

namespace RehashChart.Files

inductive Failure where
  /-- There is nothing at the path, or at a part of it. -/
  | missing
  /-- There is something at the path already. -/
  | taken
  | notDirectory
  | isDirectory
  | nameTooLong
  /-- The path ends in a name that cannot be replaced, such as `..`. -/
  | busy
  | denied
  | full
  /-- The path holds a character that no path can hold. Most operations see that for themselves. -/
  | nulCharacter
  /-- What is asked for makes no sense, such as moving a file to such a path. -/
  | invalid
  | other (number : Nat) (words : String)
  deriving DecidableEq

/-- The words for a failure, and its number if it has one. -/
def Failure.describe : Failure → String × Option Nat
  | missing => ("No such file or directory", some 2)
  | taken => ("File exists", some 17)
  | notDirectory => ("Not a directory", some 20)
  | isDirectory => ("Is a directory", some 21)
  | nameTooLong => ("File name too long", some 36)
  | busy => ("Device or resource busy", some 16)
  | denied => ("Permission denied", some 13)
  | full => ("No space left on device", some 28)
  | nulCharacter => ("file name contained an unexpected NUL byte", none)
  | invalid => ("Invalid argument", some 22)
  | other number words => (words, some number)

def Failure.message (f : Failure) : String :=
  match f.describe with
  | (words, some number) => s!"{words} (os error {number})"
  | (words, none) => words

end RehashChart.Files
