import RehashChart.Binary64.Shortest
import RehashChart.Chart.Render

/-! # Settings

A size is in inches and becomes pixels by the resolution; settings whose picture could not be
rendered are refused.
-/

namespace RehashChart

structure Paths where
  input : String
  output : String
  deriving DecidableEq

/-- The size of the picture in inches, its resolution, and whether it is shown. -/
structure ChartSettings where
  width : Binary64
  height : Binary64
  dpi : UInt32
  shown : Bool

/-- What is logged, and the file that gets a copy of it; an empty name means no file. -/
structure LogSettings where
  level : String
  file : String
  deriving DecidableEq

structure Settings where
  paths : Paths
  chart : ChartSettings
  log : LogSettings

def Paths.default : Paths := ⟨"../csv/rehash_sizes.csv", "../figures/rehash_rds.png"⟩

def ChartSettings.default : ChartSettings := ⟨7, .ofRat false (mkRat 55 10), 100, true⟩

def LogSettings.default : LogSettings := ⟨"info", ""⟩

namespace Settings

def default : Settings := ⟨.default, .default, .default⟩

/-- Whether all settings are the same; sizes are compared as numbers. -/
def same (a b : Settings) : Bool :=
  a.paths = b.paths && a.chart.width.eq b.chart.width && a.chart.height.eq b.chart.height &&
    a.chart.dpi = b.chart.dpi && a.chart.shown = b.chart.shown && a.log = b.log

/-- A length in inches as pixels; too long a one is the longest there is. -/
def pixels (inches : Binary64) (dpi : UInt32) : UInt32 :=
  UInt32.ofNat (inches * Binary64.ofNat dpi.toNat).round.toNat32

def canvasSize (s : Settings) : UInt32 × UInt32 :=
  (pixels s.chart.width s.chart.dpi, pixels s.chart.height s.chart.dpi)

/-- Why settings are refused although each one is of the right kind. -/
inductive Refusal where
  | size (width height : Binary64)
  | dpi
  | canvas (width height : Nat)
  deriving DecidableEq

def Refusal.message : Refusal → String
  | size width height =>
      s!"Chart size must be positive, got {width.plainText} x {height.plainText} inches"
  | dpi => "Chart dpi must be positive"
  | canvas width height =>
      s!"Chart canvas of {width} x {height} px is outside 1..={maxCanvasSide} px per side"

def validate (s : Settings) : Except Refusal Unit :=
  let zero : Binary64 := 0
  if !(zero.lt s.chart.width && zero.lt s.chart.height) then
    .error (.size s.chart.width s.chart.height)
  else if s.chart.dpi = 0 then .error .dpi
  else
    let (width, height) := s.canvasSize
    if isCanvas width height then .ok () else .error (.canvas width.toNat height.toNat)

end Settings

end RehashChart
