import RehashChart.Proofs.Chart.Raster

/-! # Painting into a buffer

The strokes are laid one after the other into a buffer of bytes. Every access is checked here, and a
picture is lost if one of them is beyond the end of the buffer; that never happens.
-/

namespace RehashChart.Buffer

open Raster (channels)

/-! ## Checked accesses -/

def write (buffer : Array UInt8) (i : Nat) (byte : UInt8) : Option (Array UInt8) :=
  if i < buffer.size then some (buffer.setIfInBounds i byte) else none

/-- Changes the pixel whose bytes begin at `i`. -/
def paintPixel (f : Colour → Colour) (i : Nat) (buffer : Array UInt8) : Option (Array UInt8) := do
  let red ← buffer[i]?
  let green ← buffer[i + 1]?
  let blue ← buffer[i + 2]?
  let colour := f ⟨red, green, blue⟩
  let buffer ← write buffer i colour.red
  let buffer ← write buffer (i + 1) colour.green
  write buffer (i + 2) colour.blue

/-- Changes `count` pixels from the one at `first` on; `f` is told which of them it changes. -/
def paintRun (f : Nat → Colour → Colour) (first : Nat) :
    Nat → Array UInt8 → Option (Array UInt8)
  | 0, buffer => some buffer
  | count + 1, buffer => do
      let buffer ← paintPixel (f count) (3 * (first + count)) buffer
      paintRun f first count buffer

def paintRows (f : Nat → Colour → Colour) (width left across top : Nat) :
    Nat → Array UInt8 → Option (Array UInt8)
  | 0, buffer => some buffer
  | rows + 1, buffer => do
      let buffer ← paintRun f ((top + rows) * width + left) across buffer
      paintRows f width left across top rows buffer

def paintStroke (width height : Nat) (buffer : Array UInt8) (s : Stroke) : Option (Array UInt8) :=
  let (left, across) := visible s.area.left s.area.right width
  let (top, down) := visible s.area.top s.area.bottom height
  paintRows (fun i => s.ink.over i across) width left across top down buffer

def paint (strokes : List Stroke) (width height : Nat) : Option ByteArray :=
  (strokes.foldlM (paintStroke width height) (Array.replicate (3 * width * height) 0)).map .mk

/-! ## What a buffer shows -/

structure Shows (n : Nat) (colours : Nat → Colour) (buffer : Array UInt8) : Prop where
  size : buffer.size = 3 * n
  bytes : ∀ p < n, ∀ j < 3, buffer[3 * p + j]? = (channels (colours p))[j]?

section Shows

variable {n p : Nat} {colours : Nat → Colour} {buffer : Array UInt8}

theorem write_eq {i : Nat} (hi : i < buffer.size) (byte : UInt8) :
    write buffer i byte = some (buffer.setIfInBounds i byte) :=
  if_pos hi

theorem Shows.paintPixel (h : Shows n colours buffer) (hp : p < n) (f : Colour → Colour) :
    ∃ buffer', paintPixel f (3 * p) buffer = some buffer' ∧
      Shows n (fun q => if q = p then f (colours q) else colours q) buffer' := by
  have hred : buffer[3 * p]? = some (colours p).red := h.bytes p hp 0 (by decide)
  have hgreen : buffer[3 * p + 1]? = some (colours p).green := h.bytes p hp 1 (by decide)
  have hblue : buffer[3 * p + 2]? = some (colours p).blue := h.bytes p hp 2 (by decide)
  have hsize := h.size
  unfold Buffer.paintPixel
  rw [hred, hgreen, hblue]
  simp only [Option.bind_eq_bind, Option.bind_some]
  rw [write_eq (by omega), Option.bind_some, write_eq (by rw [Array.size_setIfInBounds]; omega),
    Option.bind_some, write_eq (by simp only [Array.size_setIfInBounds]; omega)]
  refine ⟨_, rfl, by simp only [Array.size_setIfInBounds, hsize], ?_⟩
  intro q hq j hj
  simp only [Array.getElem?_setIfInBounds, Array.size_setIfInBounds]
  by_cases hsame : q = p
  · subst hsame
    rw [if_pos rfl]
    rcases (by omega : j = 0 ∨ j = 1 ∨ j = 2) with rfl | rfl | rfl
    · rw [if_neg (by omega), if_neg (by omega), if_pos (by omega), if_pos (by omega)]
      rfl
    · rw [if_neg (by omega), if_pos (by omega), if_pos (by omega)]
      rfl
    · rw [if_pos (by omega), if_pos (by omega)]
      rfl
  · rw [if_neg (by omega), if_neg (by omega), if_neg (by omega), if_neg hsame, h.bytes q hq j hj]

theorem Shows.paintRun (h : Shows n colours buffer) (f : Nat → Colour → Colour) {first count : Nat}
    (hend : count = 0 ∨ first + count ≤ n) :
    ∃ buffer', paintRun f first count buffer = some buffer' ∧
      Shows n (fun q => if first ≤ q ∧ q < first + count then f (q - first) (colours q)
        else colours q) buffer' := by
  induction count generalizing colours buffer with
  | zero =>
      refine ⟨buffer, rfl, h.size, fun q hq j hj => ?_⟩
      rw [if_neg (by omega)]
      exact h.bytes q hq j hj
  | succ count ih =>
      obtain ⟨last, hlast, hshows⟩ := h.paintPixel (p := first + count) (by omega) (f count)
      obtain ⟨buffer', hrun, hshows'⟩ := ih hshows (by omega)
      refine ⟨buffer', ?_, hshows'.size, fun q hq j hj => ?_⟩
      · unfold Buffer.paintRun
        rw [hlast]
        exact hrun
      · rw [hshows'.bytes q hq j hj]
        congr 2
        by_cases hsame : q = first + count
        · subst hsame
          rw [if_neg (by omega), if_pos rfl, if_pos (by omega), Nat.add_sub_cancel_left]
        · by_cases hin : first ≤ q ∧ q < first + count
          · rw [if_pos hin, if_neg hsame, if_pos (by omega)]
          · rw [if_neg hin, if_neg hsame, if_neg (by omega)]

theorem mem_run_iff {width y left across q : Nat} (hacross : left + across ≤ width)
    (hwidth : 0 < width) :
    y * width + left ≤ q ∧ q < y * width + left + across ↔
      q / width = y ∧ left ≤ q % width ∧ q % width < left + across := by
  have hcolumn := Nat.mod_lt q hwidth
  have hplace : q / width * width + q % width = q := Nat.div_add_mod' q width
  generalize q / width = row at hplace ⊢
  generalize q % width = column at hplace hcolumn ⊢
  subst hplace
  rcases Nat.lt_trichotomy row y with hless | rfl | hmore
  · have hrows : (row + 1) * width ≤ y * width := Nat.mul_le_mul_right width hless
    rw [Nat.succ_mul] at hrows
    omega
  · omega
  · have hrows : (y + 1) * width ≤ row * width := Nat.mul_le_mul_right width hmore
    rw [Nat.succ_mul] at hrows
    omega

theorem Shows.paintRows {width height : Nat} (h : Shows (width * height) colours buffer)
    (f : Nat → Colour → Colour) {left across top rows : Nat} (hwidth : 0 < width)
    (hacross : across = 0 ∨ left + across ≤ width) (hrows : rows = 0 ∨ top + rows ≤ height) :
    ∃ buffer', paintRows f width left across top rows buffer = some buffer' ∧
      Shows (width * height) (fun q =>
        if left ≤ q % width ∧ q % width < left + across ∧ top ≤ q / width ∧ q / width < top + rows
        then f (q % width - left) (colours q) else colours q) buffer' := by
  -- the last row is painted into a buffer that shows all the others painted
  induction rows generalizing colours buffer with
  | zero =>
      refine ⟨buffer, rfl, h.size, fun q hq j hj => ?_⟩
      rw [if_neg (by omega)]
      exact h.bytes q hq j hj
  | succ rows ih =>
      have hinside : across = 0 ∨ (top + rows) * width + left + across ≤ width * height := by
        refine hacross.imp_right fun hacross => ?_
        have hbelow : (top + rows + 1) * width ≤ height * width :=
          Nat.mul_le_mul_right width (by omega)
        rw [Nat.succ_mul, Nat.mul_comm height] at hbelow
        omega
      obtain ⟨last, hlast, hshows⟩ := h.paintRun f hinside
      obtain ⟨buffer', hrest, hshows'⟩ := ih hshows (by omega)
      refine ⟨buffer', ?_, hshows'.size, fun q hq j hj => ?_⟩
      · unfold Buffer.paintRows
        rw [hlast]
        exact hrest
      · rw [hshows'.bytes q hq j hj]
        congr 2
        by_cases hrun : (top + rows) * width + left ≤ q ∧ q < (top + rows) * width + left + across
        · obtain ⟨hrow, hleft, hright⟩ := (mem_run_iff (by omega) hwidth).mp hrun
          have hcolumn : q - ((top + rows) * width + left) = q % width - left := by
            have hplace := Nat.div_add_mod' q width
            rw [hrow] at hplace
            omega
          rw [if_neg (by omega), if_pos hrun, if_pos (by omega), hcolumn]
        · have hother : left ≤ q % width → q % width < left + across → q / width ≠ top + rows :=
            fun hleft hright hrow => hrun ((mem_run_iff (by omega) hwidth).mpr ⟨hrow, hleft, hright⟩)
          rw [if_neg hrun]
          by_cases hin : left ≤ q % width ∧ q % width < left + across ∧ top ≤ q / width ∧
              q / width < top + rows
          · rw [if_pos hin, if_pos (by omega)]
          · rw [if_neg hin, if_neg (by omega)]

end Shows

/-! ## Strokes -/

theorem visible_le (lo hi : Int) (size : Nat) :
    (visible lo hi size).2 = 0 ∨ (visible lo hi size).1 + (visible lo hi size).2 ≤ size := by
  unfold visible
  dsimp only
  omega

section Strokes

variable {width height : Nat} {colours : Nat → Colour} {buffer : Array UInt8}

/-- A stroke is laid into the buffer without leaving it. -/
theorem Shows.paintStroke (h : Shows (width * height) colours buffer) (hwidth : 0 < width)
    (s : Stroke) :
    ∃ buffer', paintStroke width height buffer s = some buffer' ∧
      Shows (width * height) (fun q => s.apply width height (q % width) (q / width) (colours q))
        buffer' := by
  obtain ⟨buffer', hpaint, hshows⟩ := h.paintRows
    (fun i => s.ink.over i (visible s.area.left s.area.right width).2) hwidth
    (visible_le s.area.left s.area.right width) (visible_le s.area.top s.area.bottom height)
  exact ⟨buffer', hpaint, hshows⟩

theorem Shows.foldlM (h : Shows (width * height) colours buffer) (hwidth : 0 < width)
    (strokes : List Stroke) :
    ∃ buffer', strokes.foldlM (Buffer.paintStroke width height) buffer = some buffer' ∧
      Shows (width * height) (fun q => strokes.foldl
        (fun ground s => s.apply width height (q % width) (q / width) ground) (colours q))
        buffer' := by
  -- what the strokes so far have made of the pixels is the ground of the next one
  induction strokes generalizing colours buffer with
  | nil => exact ⟨buffer, rfl, h⟩
  | cons s strokes ih =>
      obtain ⟨first, hfirst, hshows⟩ := h.paintStroke hwidth s
      obtain ⟨buffer', hrest, hshows'⟩ := ih hshows
      refine ⟨buffer', ?_, hshows'⟩
      rw [List.foldlM_cons, hfirst]
      exact hrest

theorem shows_blank (n : Nat) : Shows n (fun _ => .black) (Array.replicate (3 * n) 0) := by
  refine ⟨Array.size_replicate, fun p hp j hj => ?_⟩
  rw [Array.getElem?_replicate, if_pos (by omega)]
  rcases (by omega : j = 0 ∨ j = 1 ∨ j = 2) with rfl | rfl | rfl <;> rfl

/-- Painting in place never leaves the buffer, and it paints the same picture. -/
theorem paint_eq (strokes : List Stroke) {width height : Nat} (hwidth : 0 < width) :
    paint strokes width height = some (Raster.paint strokes width height) := by
  obtain ⟨buffer, hbuffer, hshows⟩ := (shows_blank (width * height)).foldlM hwidth strokes
  rw [paint, Nat.mul_assoc, hbuffer, Option.map_some, Option.some.injEq]
  have hsize := Raster.size_paint strokes width height
  rw [Nat.mul_assoc] at hsize
  refine ByteArray.ext (Array.ext_getElem? fun i => ?_)
  by_cases hi : i < 3 * (width * height)
  · -- the byte is one of the three of a pixel, and both pictures have the colour of that pixel
    have hpixel : i / 3 < width * height := by omega
    have hbyte : 3 * (i / 3) + i % 3 = i := Nat.div_add_mod i 3
    have hplace : i / 3 / width * width + i / 3 % width = i / 3 := Nat.div_add_mod' _ _
    have hrow : i / 3 / width < height := Nat.div_lt_of_lt_mul hpixel
    have hleft := hshows.bytes (i / 3) hpixel (i % 3) (Nat.mod_lt i (by decide))
    have hright := Raster.getElem?_paint strokes (Nat.mod_lt (i / 3) hwidth) hrow
      (Nat.mod_lt i (by decide : 0 < 3))
    rw [hplace, hbyte] at hright
    rw [hbyte] at hleft
    exact hleft.trans hright.symm
  · rw [Array.getElem?_eq_none (by rw [hshows.size]; omega), Array.getElem?_eq_none]
    exact le_of_eq_of_le hsize (by omega)

end Strokes

end RehashChart.Buffer
