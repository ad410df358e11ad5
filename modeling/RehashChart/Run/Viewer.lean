import RehashChart.Run.Output

/-! # Showing pictures

Where there is no display nothing is written and nothing is started.
-/

namespace RehashChart

open Files (Failure)

inductive ViewerError where
  | write (error : WriteError)
  | launch (failure : Failure)
  | status (status : ExitStatus)
  deriving DecidableEq

def ViewerError.message : ViewerError → String
  | write error => error.message
  | launch _ => "Failed to launch the image viewer"
  | status s => s!"Image viewer exited with {s.message}"

def ViewerError.causes : ViewerError → List String
  | write error => [error.fault.message]
  | launch failure => [failure.message]
  | status _ => []

def previewName : String := "rehash_rds.png"

/-- The directory for temporary files that the environment does not name. -/
def defaultTemporaryDirectory : String := "/tmp"

def displayVariables : List String := ["DISPLAY", "WAYLAND_DISPLAY"]

variable {m : Type → Type} [Monad m] {τ ρ : Type} [Host m τ ρ]

def hasDisplay (environment : Environment) : Bool :=
  displayVariables.any fun name => (environment.lookup name).getD "" ≠ ""

def previewPath (environment : Environment) : String :=
  Files.Path.join ((environment.lookup "TMPDIR").getD defaultTemporaryDirectory) previewName

def showPicture (p : Png.Picture) : m (Except ViewerError Bool) := do
  let environment ← Host.environment
  if !hasDisplay environment then
    Host.emit ⟨.info, .viewer, "No display available, skipping the chart viewer"⟩
    return .ok false
  let path := previewPath environment
  match ← writePicture path p with
  | .error e => return .error (.write e)
  | .ok () =>
      match ← Host.view path with
      | .error failure => return .error (.launch failure)
      | .ok status =>
          if status = .exited 0 then return .ok true else return .error (.status status)

end RehashChart
