import RehashChart.Proofs.Chart.Addresses
import RehashChart.Proofs.Png.Bytes

/-! # The bytes of a painted canvas

Painting row by row and stroke by stroke leaves at each pixel what the strokes, one after the other,
make of it.
-/

namespace RehashChart

namespace Raster

open Png (octets)

/-! ## Rows -/

theorem getElem?_paintSpan (f : Nat → Colour → Colour) (first count : Nat) (row : Array Colour)
    (x : Nat) :
    (paintSpan f first count row)[x]? =
      row[x]?.map fun c => if first ≤ x ∧ x < first + count then f (x - first) c else c := by
  induction count generalizing row with
  | zero =>
      rw [paintSpan]
      cases row[x]? with
      | none => rfl
      | some c => rw [Option.map_some, if_neg (by omega)]
  | succ count ih =>
      rw [paintSpan, ih, Array.getElem?_modify]
      by_cases hx : first + count = x
      · cases row[x]? with
        | none => simp
        | some c =>
            rw [if_pos hx]
            simp only [Option.map_some]
            rw [if_neg (by omega), if_pos (by omega)]
            congr 2
            omega
      · rw [if_neg hx]
        cases row[x]? with
        | none => rfl
        | some c =>
            rw [Option.map_some, Option.map_some]
            congr 1
            by_cases hin : first ≤ x ∧ x < first + count
            · rw [if_pos hin, if_pos (by omega)]
            · rw [if_neg hin, if_neg (by omega)]

theorem getElem?_paintStroke (width height y : Nat) (row : Array Colour) (s : Stroke) (x : Nat) :
    (paintStroke width height y row s)[x]? = row[x]?.map (s.apply width height x y) := by
  unfold paintStroke Stroke.apply
  dsimp only
  split
  · rename_i hy
    rw [getElem?_paintSpan]
    cases row[x]? with
    | none => rfl
    | some c =>
        rw [Option.map_some, Option.map_some]
        congr 1
        by_cases hx : (visible s.area.left s.area.right width).1 ≤ x ∧
            x < (visible s.area.left s.area.right width).1 +
              (visible s.area.left s.area.right width).2
        · rw [if_pos hx, if_pos ⟨hx.1, hx.2, hy⟩]
        · rw [if_neg hx, if_neg fun h => hx ⟨h.1, h.2.1⟩]
  · rename_i hy
    cases row[x]? with
    | none => rfl
    | some c => rw [Option.map_some, if_neg fun h => hy h.2.2]

theorem getElem?_foldl_paintStroke (strokes : List Stroke) (width height y : Nat)
    (row : Array Colour) (x : Nat) :
    (strokes.foldl (paintStroke width height y) row)[x]? =
      row[x]?.map fun ground =>
        strokes.foldl (fun ground s => s.apply width height x y ground) ground := by
  induction strokes generalizing row with
  | nil => simp
  | cons s strokes ih =>
      rw [List.foldl_cons, ih, getElem?_paintStroke, Option.map_map]
      rfl

theorem getElem?_paintRow (strokes : List Stroke) (width height y x : Nat) :
    (paintRow strokes width height y)[x]? =
      if x < width then some (colourAt strokes width height x y) else none := by
  rw [paintRow, getElem?_foldl_paintStroke, Array.getElem?_replicate]
  split <;> rfl

theorem size_paintRow (strokes : List Stroke) (width height y : Nat) :
    (paintRow strokes width height y).size = width := by
  have hlast := getElem?_paintRow strokes width height y
  rcases Nat.lt_trichotomy (paintRow strokes width height y).size width with h | h | h
  · have hmissing := hlast (paintRow strokes width height y).size
    rw [if_pos h, Array.getElem?_eq_none (Nat.le_refl _)] at hmissing
    simp at hmissing
  · exact h
  · have hthere := hlast width
    rw [if_neg (Nat.lt_irrefl _), Array.getElem?_eq_getElem h] at hthere
    simp at hthere

/-! ## The buffer -/

def channels (c : Colour) : List UInt8 := [c.red, c.green, c.blue]

theorem length_channels (c : Colour) : (channels c).length = 3 := rfl

theorem octets_foldl_pushColour (row : List Colour) (bytes : ByteArray) :
    octets (row.foldl pushColour bytes) = octets bytes ++ row.flatMap channels := by
  induction row generalizing bytes with
  | nil => simp
  | cons c row ih =>
      rw [List.foldl_cons, ih, pushColour]
      simp [channels]

def rowBytes (strokes : List Stroke) (width height y : Nat) : List UInt8 :=
  (paintRow strokes width height y).toList.flatMap channels

theorem octets_paintRows (strokes : List Stroke) (width height rows y : Nat) (bytes : ByteArray) :
    octets (paintRows strokes width height rows y bytes) =
      octets bytes ++ (List.range' y rows).flatMap (rowBytes strokes width height) := by
  induction rows generalizing y bytes with
  | zero => simp [paintRows]
  | succ rows ih =>
      rw [paintRows, ih, ← Array.foldl_toList, octets_foldl_pushColour, List.range'_succ,
        List.flatMap_cons, List.append_assoc]
      rfl

theorem octets_paint (strokes : List Stroke) (width height : Nat) :
    octets (paint strokes width height) =
      (List.range height).flatMap (rowBytes strokes width height) := by
  rw [paint, octets_paintRows, List.range_eq_range']
  rfl

theorem length_flatMap_of {α β : Type} {f : α → List β} {k : Nat} (hf : ∀ a, (f a).length = k)
    (list : List α) : (list.flatMap f).length = k * list.length := by
  induction list with
  | nil => rfl
  | cons a list ih =>
      rw [List.flatMap_cons, List.length_append, hf, ih, List.length_cons, Nat.mul_succ]
      omega

theorem getElem?_flatMap_of {α β : Type} {f : α → List β} {k : Nat} (hf : ∀ a, (f a).length = k)
    (list : List α) (i : Nat) {j : Nat} (hj : j < k) :
    (list.flatMap f)[k * i + j]? = list[i]?.bind fun a => (f a)[j]? := by
  induction list generalizing i with
  | nil => simp
  | cons a list ih =>
      rw [List.flatMap_cons]
      cases i with
      | zero =>
          rw [Nat.mul_zero, Nat.zero_add, List.getElem?_append_left (by rw [hf]; exact hj)]
          rfl
      | succ i =>
          rw [List.getElem?_append_right (by rw [hf, Nat.mul_succ]; omega), hf,
            List.getElem?_cons_succ, ← ih]
          congr 1
          rw [Nat.mul_succ]
          omega

theorem length_rowBytes (strokes : List Stroke) (width height y : Nat) :
    (rowBytes strokes width height y).length = 3 * width := by
  rw [rowBytes, length_flatMap_of length_channels, Array.length_toList, size_paintRow]

theorem size_paint (strokes : List Stroke) (width height : Nat) :
    (paint strokes width height).size = 3 * width * height := by
  rw [← Png.length_octets, octets_paint, length_flatMap_of (length_rowBytes strokes width height),
    List.length_range]

theorem getElem?_paint (strokes : List Stroke) {width height x y j : Nat} (hx : x < width)
    (hy : y < height) (hj : j < 3) :
    (paint strokes width height)[3 * (y * width + x) + j]? =
      (channels (colourAt strokes width height x y))[j]? := by
  have hoctets : (paint strokes width height)[3 * (y * width + x) + j]? =
      (octets (paint strokes width height))[3 * (y * width + x) + j]? := by
    rw [octets, Array.getElem?_toList]
    rfl
  have hplace : 3 * (y * width + x) + j = 3 * width * y + (3 * x + j) := by
    rw [Nat.mul_add, Nat.mul_comm y width, ← Nat.mul_assoc, Nat.add_assoc]
  rw [hoctets, octets_paint, hplace,
    getElem?_flatMap_of (length_rowBytes strokes width height) _ _ (by omega),
    List.getElem?_range hy, Option.bind_some, rowBytes,
    getElem?_flatMap_of length_channels _ _ hj, Array.getElem?_toList, getElem?_paintRow,
    if_pos hx, Option.bind_some]

end Raster

/-! ## Pixels -/

namespace BarChart

variable {chart : BarChart} {width height : UInt32} {rendered : RenderedChart}

theorem render_eq_ok_iff :
    chart.render width height = .ok rendered ↔ isCanvas width height = true ∧
      rendered = ⟨width, height,
        Raster.paint (chart.strokes width.toNat height.toNat) width.toNat height.toNat,
        chart.barAreas (.ofSize width.toNat height.toNat)⟩ := by
  unfold render
  by_cases hcanvas : isCanvas width height = true
  · simp only [hcanvas, if_true, Except.ok.injEq, true_and]
    exact eq_comm
  · simp [hcanvas]

theorem size_le_of_isCanvas (h : isCanvas width height = true) :
    3 * width.toNat * height.toNat ≤ 805306368 := by
  simp only [isCanvas, Bool.and_eq_true, maxCanvasSide] at h
  obtain ⟨⟨_, hwidth⟩, hheight⟩ := h
  have hproduct : width.toNat * height.toNat ≤ 16384 * 16384 :=
    Nat.mul_le_mul (of_decide_eq_true hwidth) (of_decide_eq_true hheight)
  rw [Nat.mul_assoc]
  omega

theorem pixel_of_render (h : chart.render width height = .ok rendered) {x y : UInt32}
    (hx : x < width) (hy : y < height) :
    rendered.pixel x y = .colour (colourAt (chart.strokes width.toNat height.toNat) width.toNat
      height.toNat x.toNat y.toNat) := by
  obtain ⟨hcanvas, rfl⟩ := render_eq_ok_iff.mp h
  have hread := fun j hj => Raster.getElem?_paint (chart.strokes width.toNat height.toNat)
    (UInt32.lt_iff_toNat_lt.mp hx) (UInt32.lt_iff_toNat_lt.mp hy) (j := j) hj
  have hred := hread 0 (by decide)
  have hgreen := hread 1 (by decide)
  have hblue := hread 2 (by decide)
  rw [Nat.add_zero] at hred
  have hwhole := Raster.size_paint (chart.strokes width.toNat height.toNat) width.toNat height.toNat
  have hsmall := size_le_of_isCanvas hcanvas
  have hsize : (Raster.paint (chart.strokes width.toNat height.toNat) width.toNat
      height.toNat).size < UInt64.size := by
    simp only [UInt64.size]
    omega
  unfold RenderedChart.pixel
  rw [RenderedChart.pixelIn_of_inside hsize hx hy, Overflow.word_of_lt _
    (Nat.lt_trans (Nat.lt_of_add_right_lt (RenderedChart.address_lt hx hy hwhole)) hsize)]
  simp only [Option.bind_some, RenderedChart.colourFrom, RenderedChart.address, hred, hgreen, hblue]
  rfl

end BarChart

end RehashChart
