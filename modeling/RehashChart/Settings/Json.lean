import RehashChart.Json.Decode
import RehashChart.Json.Writer
import RehashChart.Settings.Basic

/-! # Settings as JSON

Reading takes any part of the object: what is not there has its default, and what is not known does
not matter.
-/

namespace RehashChart

open Json (Value Reading Fault)

def Paths.toJson (p : Paths) : Value :=
  .object [("input", .text p.input), ("output", .text p.output)]

def ChartSettings.toJson (c : ChartSettings) : Value :=
  .object
    [("width", .number c.width), ("height", .number c.height), ("dpi", .natural c.dpi.toNat),
      ("show", .boolean c.shown)]

def LogSettings.toJson (l : LogSettings) : Value :=
  .object [("level", .text l.level), ("file", .text l.file)]

def Settings.toJson (s : Settings) : Value :=
  .object [("paths", s.paths.toJson), ("chart", s.chart.toJson), ("log", s.log.toJson)]

/-! ## Reading -/

def Paths.setField : Json.Setter Paths
  | 0, value, p => value.toText.map fun input => { p with input }
  | _, value, p => value.toText.map fun output => { p with output }

def ChartSettings.setField : Json.Setter ChartSettings
  | 0, value, c => value.toNumber.map fun width => { c with width }
  | 1, value, c => value.toNumber.map fun height => { c with height }
  | 2, value, c => value.toWord.map fun dpi => { c with dpi }
  | _, value, c => value.toBool.map fun shown => { c with shown }

def LogSettings.setField : Json.Setter LogSettings
  | 0, value, l => value.toText.map fun level => { l with level }
  | _, value, l => value.toText.map fun file => { l with file }

def Paths.ofJson (value : Reading) : Except Fault Paths :=
  Json.setFields ["input", "output"] Paths.setField .default value

def ChartSettings.ofJson (value : Reading) : Except Fault ChartSettings :=
  Json.setFields ["width", "height", "dpi", "show"] ChartSettings.setField .default value

def LogSettings.ofJson (value : Reading) : Except Fault LogSettings :=
  Json.setFields ["level", "file"] LogSettings.setField .default value

namespace Settings

def setField : Json.Setter Settings
  | 0, value, s => (Paths.ofJson value).map fun paths => { s with paths }
  | 1, value, s => (ChartSettings.ofJson value).map fun chart => { s with chart }
  | _, value, s => (LogSettings.ofJson value).map fun log => { s with log }

def ofJson (text : String) : Except Fault Settings :=
  Json.decode (Json.setFields ["paths", "chart", "log"] setField .default) text

end Settings

end RehashChart
