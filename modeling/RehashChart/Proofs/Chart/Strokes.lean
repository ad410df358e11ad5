import RehashChart.Chart.Drawing

/-! # What strokes cover

A stroke changes the pixels of its area and no others. The areas of lines and blocks lie between the
places that they were drawn with, clamped.
-/

namespace RehashChart

variable {width height x y : Nat}

/-! ## One stroke -/

theorem mem_visible {lo hi : Int} {size p : Nat} (hp : p < size) :
    (visible lo hi size).1 ≤ p ∧ p < (visible lo hi size).1 + (visible lo hi size).2 ↔
      lo ≤ p ∧ (p : Int) < hi := by
  unfold visible
  dsimp only
  omega

theorem Stroke.mem_area (s : Stroke) (hx : x < width) (hy : y < height) :
    ((visible s.area.left s.area.right width).1 ≤ x ∧
      x < (visible s.area.left s.area.right width).1 +
        (visible s.area.left s.area.right width).2 ∧
      (visible s.area.top s.area.bottom height).1 ≤ y ∧
      y < (visible s.area.top s.area.bottom height).1 +
        (visible s.area.top s.area.bottom height).2) ↔ s.area.Contains x y := by
  rw [← and_assoc, mem_visible hx, mem_visible hy, and_assoc]
  rfl

theorem Stroke.apply_of_not_contains {s : Stroke} (hx : x < width) (hy : y < height)
    (h : ¬s.area.Contains x y) (ground : Colour) : s.apply width height x y ground = ground := by
  unfold apply
  dsimp only
  exact if_neg fun hin => h ((s.mem_area hx hy).mp hin)

theorem Stroke.apply_solid {s : Stroke} {c : Colour} (hx : x < width) (hy : y < height)
    (hink : s.ink = .solid c) (ground : Colour) :
    s.apply width height x y ground = if s.area.Contains x y then c else ground := by
  by_cases h : s.area.Contains x y
  · unfold apply
    dsimp only
    rw [if_pos ((s.mem_area hx hy).mpr h), if_pos h, hink]
    rfl
  · rw [apply_of_not_contains hx hy h, if_neg h]

/-! ## Veils -/

/-- Blending pixels eight at a time and one by one is the same. -/
theorem veilEight_eq (c : UInt8) : veilEight c = veilOne c := by
  have hc := c.toNat_lt
  unfold veilEight veilOne
  congr 1
  simp only [veilWeight]
  omega

/-- A veil is four fifths of white and one fifth of the ground, rounded down, or one less. -/
theorem veilOne_bounds (c : UInt8) :
    5 * (veilOne c).toNat ≤ c.toNat + 4 * 255 ∧ c.toNat + 4 * 255 < 5 * ((veilOne c).toNat + 2) := by
  have hc := c.toNat_lt
  have hsmall : c.toNat + (255 - c.toNat) * veilWeight / 256 < 2 ^ 8 := by
    simp only [veilWeight]
    omega
  rw [veilOne, UInt8.toNat_ofNat_of_lt' hsmall]
  simp only [veilWeight]
  omega

theorem Ink.over_veil (i count : Nat) (ground : Colour) :
    Ink.veil.over i count ground = ground.mapChannels veilOne := by
  unfold Ink.over
  dsimp only
  split
  · exact congrArg ground.mapChannels (funext veilEight_eq)
  · rfl

theorem Stroke.apply_veil {s : Stroke} (hx : x < width) (hy : y < height) (hink : s.ink = .veil)
    (ground : Colour) :
    s.apply width height x y ground =
      if s.area.Contains x y then ground.mapChannels veilOne else ground := by
  by_cases h : s.area.Contains x y
  · unfold apply
    dsimp only
    rw [if_pos ((s.mem_area hx hy).mpr h), if_pos h, hink, Ink.over_veil]
  · rw [apply_of_not_contains hx hy h, if_neg h]

/-! ## Many strokes -/

theorem foldl_apply_of_not_contains (hx : x < width) (hy : y < height) {strokes : List Stroke}
    (h : ∀ s ∈ strokes, ¬s.area.Contains x y) (ground : Colour) :
    strokes.foldl (fun ground s => s.apply width height x y ground) ground = ground := by
  induction strokes generalizing ground with
  | nil => rfl
  | cons s strokes ih =>
      rw [List.foldl_cons, Stroke.apply_of_not_contains hx hy (h s List.mem_cons_self),
        ih fun s' hs' => h s' (List.mem_cons_of_mem s hs')]

theorem foldl_apply_solid (hx : x < width) (hy : y < height) {strokes : List Stroke} {c : Colour}
    (h : ∀ s ∈ strokes, s.ink = .solid c) (ground : Colour) :
    strokes.foldl (fun ground s => s.apply width height x y ground) ground =
      if ∃ s ∈ strokes, s.area.Contains x y then c else ground := by
  induction strokes generalizing ground with
  | nil => simp
  | cons s strokes ih =>
      rw [List.foldl_cons, ih fun s' hs' => h s' (List.mem_cons_of_mem s hs'),
        Stroke.apply_solid hx hy (h s List.mem_cons_self)]
      by_cases hlater : ∃ s' ∈ strokes, s'.area.Contains x y
      · obtain ⟨s', hs', hin⟩ := hlater
        rw [if_pos ⟨s', hs', hin⟩, if_pos ⟨s', List.mem_cons_of_mem s hs', hin⟩]
      · rw [if_neg hlater]
        by_cases hhere : s.area.Contains x y
        · rw [if_pos hhere, if_pos ⟨s, List.mem_cons_self, hhere⟩]
        · rw [if_neg hhere, if_neg]
          rintro ⟨s', hs', hin⟩
          rcases List.mem_cons.mp hs' with rfl | hs'
          · exact hhere hin
          · exact hlater ⟨s', hs', hin⟩

/-! ## Lines and blocks -/

variable {bounds : Area} {p q : Point} {x y : Int}

theorem Area.clamp_of_within {a : Area} {p : Point} (hx : a.left ≤ p.x ∧ p.x ≤ a.right)
    (hy : a.top ≤ p.y ∧ p.y ≤ a.bottom) : a.clamp p = p := by
  obtain ⟨px, py⟩ := p
  simp only [Area.clamp, Point.mk.injEq] at *
  omega

theorem Area.between_of_le {left top right bottom : Int} (hx : left ≤ right) (hy : top ≤ bottom) :
    Area.between ⟨left, top⟩ ⟨right, bottom⟩ = ⟨left, top, right, bottom⟩ := by
  simp only [Area.between, Area.mk.injEq]
  omega

theorem contains_line {c : Colour} (h : (line bounds p q c).area.Contains x y) :
    min (bounds.clamp p).x (bounds.clamp q).x ≤ x ∧ x ≤ max (bounds.clamp p).x (bounds.clamp q).x ∧
      min (bounds.clamp p).y (bounds.clamp q).y ≤ y ∧
        y ≤ max (bounds.clamp p).y (bounds.clamp q).y := by
  unfold line at h
  dsimp only at h
  split at h
  · simp only [horizontal, fill, Area.Contains] at h
    omega
  · simp only [vertical, fill, Area.Contains] at h
    omega

theorem line_ink (bounds : Area) (p q : Point) (c : Colour) :
    (line bounds p q c).ink = .solid c := by
  unfold line
  dsimp only
  split <;> rfl

theorem contains_block {ink : Ink} (h : (block bounds p q ink).area.Contains x y) :
    min (bounds.clamp p).x (bounds.clamp q).x ≤ x ∧ x ≤ max (bounds.clamp p).x (bounds.clamp q).x ∧
      min (bounds.clamp p).y (bounds.clamp q).y ≤ y ∧
        y ≤ max (bounds.clamp p).y (bounds.clamp q).y := by
  simp only [block, Area.between, Area.Contains] at h
  omega

structure Area.Within (a bounds : Area) : Prop where
  left : bounds.left ≤ a.left
  across : a.left ≤ a.right
  right : a.right ≤ bounds.right
  top : bounds.top ≤ a.top
  down : a.top ≤ a.bottom
  bottom : a.bottom ≤ bounds.bottom

theorem block_area {a : Area} (h : a.Within bounds) (ink : Ink) :
    (block bounds ⟨a.left, a.bottom⟩ ⟨a.right, a.top⟩ ink).area = a := by
  obtain ⟨hleft, hacross, hright, htop, hdown, hbottom⟩ := h
  obtain ⟨l, t, r, b⟩ := a
  simp only [block, Area.between, Area.clamp, Area.mk.injEq] at *
  omega

end RehashChart
