import RehashChart.Binary64.Decimal

/-! # Values of a settings document

Dates and times are values of their own kind; `Moment.render` writes one in the form that every
spelling of it shares.
-/

namespace RehashChart.Toml

structure Date where
  year : Nat
  month : Nat
  day : Nat
  deriving DecidableEq

structure Time where
  hour : Nat
  minute : Nat
  second : Nat
  nanosecond : Nat
  deriving DecidableEq

inductive Offset where
  | universal
  | minutes (count : Int)
  deriving DecidableEq

inductive Moment where
  | day (date : Date)
  | clock (time : Time)
  | instant (date : Date) (time : Time) (offset : Option Offset)
  deriving DecidableEq

inductive Value where
  | text (s : String)
  | integer (n : Int)
  | float (x : Binary64)
  | boolean (b : Bool)
  | moment (m : Moment)
  | list (items : List Value)
  | table (entries : List (String × Value))

abbrev Entries := List (String × Value)

def padded (width n : Nat) : String :=
  let digits := Nat.toDigits 10 n
  String.ofList (List.replicate (width - digits.length) '0' ++ digits)

def Date.render (d : Date) : String :=
  padded 4 d.year ++ "-" ++ padded 2 d.month ++ "-" ++ padded 2 d.day

def renderFraction (nanosecond : Nat) : String :=
  if nanosecond = 0 then ""
  else
    let digits := (padded 9 nanosecond).toList
    "." ++ String.ofList (digits.reverse.dropWhile (· = '0')).reverse

def Time.render (t : Time) : String :=
  padded 2 t.hour ++ ":" ++ padded 2 t.minute ++ ":" ++ padded 2 t.second ++
    renderFraction t.nanosecond

def Offset.render : Offset → String
  | universal => "Z"
  | minutes count =>
      let sign := if count < 0 then "-" else "+"
      sign ++ padded 2 (count.natAbs / 60) ++ ":" ++ padded 2 (count.natAbs % 60)

def renderOffset : Option Offset → String
  | none => ""
  | some offset => offset.render

/-- The date, a `T` and the time, as far as they are there. -/
def Moment.render : Moment → String
  | day date => date.render
  | clock time => time.render
  | instant date time offset => date.render ++ "T" ++ time.render ++ renderOffset offset

end RehashChart.Toml
