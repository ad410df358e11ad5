import RehashChart.Benchmark.Sample
import RehashChart.Binary64.Arithmetic

/-! # Bars

A bar stands at the index of its row, whatever its insertion size is, so sizes may repeat and need
not be sorted.
-/

namespace RehashChart

/-- A bar: its place, the text below it, and its height. -/
structure Bar where
  position : Nat
  label : String
  height : UInt64
  deriving DecidableEq

structure BarChart where
  bars : List Bar
  deriving DecidableEq

namespace BarChart

def ofSamples (samples : List Sample) : BarChart :=
  ⟨samples.zipIdx.map fun (sample, position) =>
    ⟨position, toString sample.insertSize.toNat, sample.rehashRounds⟩⟩

def tallest (chart : BarChart) : Nat :=
  chart.bars.foldl (fun height bar => max height bar.height.toNat) 0

/-- The share of the tallest bar that the vertical axis leaves free above it. -/
def headroom : Binary64 := .ofRat false (mkRat 5 100)

def maxHeight : Nat := UInt64.size - 1

def yMax (chart : BarChart) : Nat :=
  let t := chart.tallest
  max 1 (min maxHeight (t + (Binary64.ofNat t * headroom).ceil.toNat64))

/-- How far from a bar's place its label is still printed. -/
def labelTolerance : Binary64 := .ofRat false (mkRat 1 1000000)

/-- The text at a place of the horizontal axis: the label of the bar that stands there, or none
between the bars. -/
def labelAt (chart : BarChart) (x : Binary64) : String :=
  let index := x.round
  if index.lt 0 || labelTolerance.lt (x - index).abs then ""
  else
    match chart.bars[index.toNat64]? with
    | some bar => bar.label
    | none => ""

def slots (chart : BarChart) : Nat := max 1 chart.bars.length

end BarChart

end RehashChart
