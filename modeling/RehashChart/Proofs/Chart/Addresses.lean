import RehashChart.Chart.Render

/-! # Addresses of pixels

The number of a pixel fits a word of sixty-four bits, but three times as much need not. Words give
the exact address if they can hold it; else a build with checks stops and another one wraps around.
-/

namespace RehashChart

theorem Overflow.word_of_lt (overflow : Overflow) {n : Nat} (h : n < UInt64.size) :
    overflow.word n = some n := by
  cases overflow with
  | checked => exact if_pos h
  | wrapping => rw [word, Nat.mod_eq_of_lt h]

namespace RenderedChart

variable {picture : RenderedChart} {x y : UInt32} {overflow : Overflow}

/-- Where the bytes of the pixel at `(x, y)` begin, in numbers without a bound. -/
def address (picture : RenderedChart) (x y : UInt32) : Nat :=
  3 * (y.toNat * picture.width.toNat + x.toNat)

/-- Only the last product can be too large for a word. -/
theorem addressIn_eq (overflow : Overflow) (picture : RenderedChart) (x y : UInt32) :
    picture.addressIn overflow x y = overflow.word (picture.address x y) := by
  have hy : y.toNat ≤ 4294967295 := Nat.le_of_lt_succ y.toNat_lt
  have hwidth : picture.width.toNat ≤ 4294967295 := Nat.le_of_lt_succ picture.width.toNat_lt
  have hx := x.toNat_lt
  have hproduct : y.toNat * picture.width.toNat ≤ 4294967295 * 4294967295 :=
    Nat.mul_le_mul hy hwidth
  have hrow := overflow.word_of_lt (n := y.toNat * picture.width.toNat)
    (by simp only [UInt64.size]; omega)
  have hplace := overflow.word_of_lt (n := y.toNat * picture.width.toNat + x.toNat)
    (by simp only [UInt64.size]; omega)
  simp [addressIn, hrow, hplace, address, Nat.mul_comm 3]

def colourFrom (bytes : ByteArray) (i : Nat) : Option Colour := do
  let red ← bytes[i]?
  let green ← bytes[i + 1]?
  let blue ← bytes[i + 2]?
  return ⟨red, green, blue⟩

/-- In a buffer that words can address the bytes after the first are not looked for elsewhere. -/
theorem colourIn_eq {bytes : ByteArray} (hsize : bytes.size < UInt64.size) (i : Nat) :
    colourIn overflow bytes i = colourFrom bytes i := by
  unfold colourIn colourFrom
  by_cases hi : i < bytes.size
  · rw [overflow.word_of_lt (n := i + 1) (by omega)]
    by_cases hnext : i + 1 < bytes.size
    · rw [overflow.word_of_lt (n := i + 2) (by omega)]
      rfl
    · have hgreen : bytes[i + 1]? = none := getElem?_neg _ _ hnext
      simp [hgreen]
  · have hred : bytes[i]? = none := getElem?_neg _ _ hi
    simp [hred]

theorem pixelIn_eq_outside_iff :
    picture.pixelIn overflow x y = .outside ↔ picture.width ≤ x ∨ picture.height ≤ y := by
  unfold pixelIn
  by_cases h : picture.width ≤ x ∨ picture.height ≤ y
  · simp [h]
  · simp only [h, if_false, iff_false]
    split <;> simp

theorem pixelIn_of_inside (hsize : picture.pixels.size < UInt64.size) (hx : x < picture.width)
    (hy : y < picture.height) :
    picture.pixelIn overflow x y =
      (((overflow.word (picture.address x y)).bind (colourFrom picture.pixels)).map
        Sight.colour).getD .missing := by
  have hin : ¬(picture.width ≤ x ∨ picture.height ≤ y) := by
    rw [not_or, UInt32.not_le, UInt32.not_le]
    exact ⟨hx, hy⟩
  have hread : colourIn overflow picture.pixels = colourFrom picture.pixels :=
    funext (colourIn_eq hsize)
  rw [pixelIn, if_neg hin, addressIn_eq, hread]
  cases (overflow.word (picture.address x y)).bind (colourFrom picture.pixels) <;> rfl

theorem address_lt (hx : x < picture.width) (hy : y < picture.height)
    (hsize : picture.pixels.size = 3 * picture.width.toNat * picture.height.toNat) :
    picture.address x y + 2 < picture.pixels.size := by
  rw [UInt32.lt_iff_toNat_lt] at hx hy
  have hrow : (y.toNat + 1) * picture.width.toNat ≤
      picture.height.toNat * picture.width.toNat := Nat.mul_le_mul_right _ hy
  rw [Nat.succ_mul, Nat.mul_comm picture.height.toNat] at hrow
  rw [hsize, address, Nat.mul_assoc]
  omega

end RenderedChart

end RehashChart
