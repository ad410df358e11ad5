import RehashChart.Chart.Render
import RehashChart.Files.Path
import RehashChart.Host.Basic
import RehashChart.Png.Picture
import RehashChart.Text.Quoted

/-! # Writing pictures

A picture is written into a temporary file beside its destination, which is then moved there.
-/

namespace RehashChart

open Files (Failure)

inductive WriteFault where
  /-- No temporary file could be created; the path is the one tried. -/
  | noTemporary (tried : String) (failure : Failure)
  /-- There are too few or too many bytes for the pixels. -/
  | notWhole
  | emptyWidth
  | emptyHeight
  /-- The file could not be filled or moved. -/
  | failed (failure : Failure)
  deriving DecidableEq

structure WriteError where
  path : String
  fault : WriteFault
  deriving DecidableEq

def WriteFault.message : WriteFault → String
  | noTemporary tried failure => s!"{failure.message} at path {Text.quoted tried}"
  | notWhole => "wrong number of bytes"
  | emptyWidth => "Zero width not allowed"
  | emptyHeight => "Zero height not allowed"
  | failed failure => failure.message

def WriteError.message (e : WriteError) : String := s!"Failed to write image to {e.path}"

def RenderedChart.toPicture (chart : RenderedChart) : Png.Picture :=
  ⟨chart.width, chart.height, chart.pixels⟩

def encodePicture (p : Png.Picture) : Except WriteFault ByteArray :=
  if !p.isWhole then .error .notWhole
  else if p.width = 0 then .error .emptyWidth
  else if p.height = 0 then .error .emptyHeight
  else .ok (Png.encode p)

variable {m : Type → Type} [Monad m] {τ ρ : Type} [Host m τ ρ]

/-- Fills a temporary file and moves it to a path. -/
def place (path : String) (p : Png.Picture) (temporary : τ) : m (Except WriteFault Unit) := do
  match encodePicture p with
  | .error fault => return .error fault
  | .ok bytes =>
      match ← Host.fill temporary bytes with
      | .error failure => return .error (.failed failure)
      | .ok () => return (← Host.rename temporary path).mapError .failed

def writePicture (path : String) (p : Png.Picture) : m (Except WriteError Unit) := do
  match ← Host.createTemporary (Files.Path.directory path) with
  | .error (tried, failure) => return .error ⟨path, .noTemporary tried failure⟩
  | .ok temporary =>
      match ← place path p temporary with
      | .ok () => return .ok ()
      | .error fault =>
          Host.discard temporary
          return .error ⟨path, fault⟩

end RehashChart
