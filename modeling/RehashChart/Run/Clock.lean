/-! # Times as text

The time since the start stands at the beginning of each line, and at the end of a run in the unit
that leaves one to three digits before the point.
-/

namespace RehashChart.Clock

def twoDigits (n : Nat) : String := if n < 10 then "0" ++ toString n else toString n

def stamp (seconds : Nat) : String :=
  twoDigits (seconds / 3600) ++ "h " ++ twoDigits (seconds % 3600 / 60) ++ "m " ++
    twoDigits (seconds % 60) ++ "s"

/-- Units of time in nanoseconds. -/
def second : Nat := 1000000000
def millisecond : Nat := 1000000
def microsecond : Nat := 1000

def inUnits (nanoseconds unit : Nat) (name : String) : String :=
  let hundredths := (100 * nanoseconds + unit / 2) / unit
  toString (hundredths / 100) ++ "." ++ twoDigits (hundredths % 100) ++ name

def elapsed (nanoseconds : Nat) : String :=
  if second ≤ nanoseconds then inUnits nanoseconds second "s"
  else if millisecond ≤ nanoseconds then inUnits nanoseconds millisecond "ms"
  else if microsecond ≤ nanoseconds then inUnits nanoseconds microsecond "µs"
  else inUnits nanoseconds 1 "ns"

end RehashChart.Clock
