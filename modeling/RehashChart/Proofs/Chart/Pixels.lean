import Mathlib.Data.List.Basic
import RehashChart.Proofs.Chart.Raster

/-! # Reading pixels

The pixels of a picture, read row by row, are its buffer. A word is too short for the addresses of
some pixels that no buffer has: a build with checks stops there, as it does wherever the buffer
ends; one without them reads other bytes.
-/

namespace RehashChart

open Png (octets)
open Raster (channels)

/-! ## Pieces of one length -/

namespace RenderedChart

variable {picture : RenderedChart} {x y : UInt32}

def Sight.bytes : Sight → List UInt8
  | .colour c => channels c
  | _ => []

/-- Two pixels in a buffer of their size, and a canvas far too large for its buffer. -/
def pair : RenderedChart := ⟨2, 1, ⟨#[255, 0, 0, 0, 0, 255]⟩, []⟩

end RenderedChart

end RehashChart
