/-! # Benchmark runs -/

namespace RehashChart

/-- One run: how many keys were inserted, and how many rehash rounds that triggered. -/
structure Sample where
  insertSize : UInt64
  rehashRounds : UInt64
  deriving DecidableEq

namespace Benchmark

def insertSizeColumn : String := "insert size"

def rehashRoundsColumn : String := "rehash rounds"

def insertSizes (samples : List Sample) : List UInt64 := samples.map (·.insertSize)

def rehashRounds (samples : List Sample) : List UInt64 := samples.map (·.rehashRounds)

def maxRehashRounds (samples : List Sample) : Option UInt64 :=
  (rehashRounds samples).max?

def renderNumbers (numbers : List UInt64) : String :=
  "[" ++ ", ".intercalate (numbers.map fun n => toString n.toNat) ++ "]"

def render (samples : List Sample) : String :=
  renderNumbers (insertSizes samples) ++ " " ++ renderNumbers (rehashRounds samples)

end Benchmark

end RehashChart
