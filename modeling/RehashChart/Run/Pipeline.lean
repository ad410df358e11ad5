import RehashChart.Benchmark.Load
import RehashChart.Run.Viewer
import RehashChart.Settings.Json
import RehashChart.Settings.Read

/-! # Runs

A run ends with the first step that fails, but a chart that cannot be shown is written all the same.
`start` reads the settings and opens the log first.
-/

namespace RehashChart

open Files (Failure)

inductive RunError where
  | load (input : String) (error : Benchmark.LoadError)
  | render (error : RenderError)
  | write (error : WriteError)
  deriving DecidableEq

inductive StartError where
  | settings (error : Settings.ReadError)
  | log (file : String) (failure : Failure)
  | run (error : RunError)
  deriving DecidableEq

def RunError.message : RunError → String
  | load input _ => s!"Failed to load {input}"
  | render error => error.message
  | write error => error.message

def RunError.causes : RunError → List String
  | load _ (.table error) => [(Benchmark.LoadError.table error).message, error.message]
  | load _ error => [error.message]
  | render _ => []
  | write error => [error.fault.message]

def StartError.message : StartError → String
  | settings error => error.message
  | log file _ => s!"Failed to open log file {file}"
  | run error => error.message

def StartError.causes : StartError → List String
  | settings _ => []
  | log _ failure => [failure.message]
  | run error => error.causes

/-- The status that a failed run ends with. Only a key that leads before the start of a list is a
fault that the program does not expect. -/
def StartError.exitStatus : StartError → Nat
  | settings .beforeStart => 101
  | _ => 1

variable {m : Type → Type} [Monad m] {τ ρ : Type} [Host m τ ρ]

def tell (level : Log.Level) (message : String) : m Unit := Host.emit ⟨level, .run, message⟩

/-- The runs in a file whose content, or the failure to get it, is given. -/
def loadContent (path : String) : Except Failure ByteArray →
    Except Benchmark.LoadError (List Sample)
  | .ok bytes => Benchmark.load bytes.data.toList .complete
  | .error .missing => .error (.notFound path)
  | .error failure => .error (.table (.broken failure.message))

def loadFile (path : String) : m (Except Benchmark.LoadError (List Sample)) := do
  return loadContent path (← Host.readFile path)

/-- Shows the picture if it is to be shown; no failure of that matters. -/
def present (shown : Bool) (p : Png.Picture) : m Unit := do
  if shown then
    match ← showPicture p with
    | .ok _ => return
    | .error e =>
        let chain := ": ".intercalate (e.message :: e.causes)
        tell .warn s!"Could not display the chart: {chain}"
  else tell .info "Chart viewer disabled in settings"

def run (s : Settings) : m (Except RunError Unit) := do
  tell .info "Starting rehashplot"
  tell .debug s!"Settings: {s.toJson.pretty 0}"
  match ← loadFile s.paths.input with
  | .error e => return .error (.load s.paths.input e)
  | .ok samples =>
      tell .info s!"Loaded {samples.length} rows from {s.paths.input}"
      tell .info (Benchmark.render samples)
      let (width, height) := s.canvasSize
      match (BarChart.ofSamples samples).render width height with
      | .error e => return .error (.render e)
      | .ok chart =>
          present s.chart.shown chart.toPicture
          match ← writePicture s.paths.output chart.toPicture with
          | .error e => return .error (.write e)
          | .ok () =>
              tell .info s!"Chart written to {s.paths.output}"
              tell .info s!"Program complete after {← Host.elapsed}"
              return .ok ()

/-! ## From the beginning -/

def firstFile : List String → m (Option (String × ByteArray))
  | [] => return none
  | path :: paths => do
      match ← Host.readFile path with
      | .ok bytes => return some (path, bytes)
      | .error _ => firstFile paths

/-- Finds a settings file at a path as it stands, or with `.toml` after it. One that is not text
does not count. -/
def findSettings (path : String) : m (Option Settings.File) := do
  let here ← Host.workingDirectory
  let exact := Files.Path.join here path
  match ← firstFile (exact :: (Files.Path.withSuffix exact ".toml").toList) with
  | none => return none
  | some (found, bytes) =>
      match Text.decode bytes with
      | .ok text => return some ⟨Files.Path.relativeTo here found, text⟩
      | .error _ => return none

def readSettings (path : String) : m (Except Settings.ReadError Settings) := do
  let file ← findSettings path
  return Settings.read file (← Host.environment)

/-- The settings file that is looked for in the working directory. -/
def settingsPath : String := "rehashplot"

def openLogFile (file : String) : m (Except Failure (Option ρ)) := do
  if file = "" then return .ok none else return (← Host.openLog file).map some

def setUpLog (s : LogSettings) : m (Except Failure Unit) := do
  let level := Text.lowercase s.level
  let (filter, complaints) := Log.Filter.read level
  complaints.forM Host.complain
  match ← openLogFile s.file with
  | .error failure => return .error failure
  | .ok log =>
      if ← Host.install filter log then
        Host.emit ⟨.debug, .log, s!"Logging is configured with level: {level}"⟩
      return .ok ()

def start : m (Except StartError Unit) := do
  match ← readSettings settingsPath with
  | .error e => return .error (.settings e)
  | .ok settings =>
      match ← setUpLog settings.log with
      | .error failure => return .error (.log settings.log.file failure)
      | .ok () => return (← run settings).mapError .run

end RehashChart
