import RehashChart.Proofs.Chart.Checked

/-! # Every canvas

A chart can be rendered on any canvas that has a pixel and is not too large, however little room the
margins and labels leave for it.
-/

namespace RehashChart

theorem isCanvas_eq_false_iff {width height : UInt32} :
    isCanvas width height = false ↔
      width = 0 ∨ height = 0 ∨ 16384 < width.toNat ∨ 16384 < height.toNat := by
  have hzero : ∀ side : UInt32, side = 0 ↔ side.toNat = 0 := fun side => by
    rw [← UInt32.toNat_inj, UInt32.toNat_zero]
  rw [← Bool.not_eq_true, Settings.isCanvas_iff, hzero, hzero]
  unfold maxCanvasSide
  omega

namespace RenderedChart

variable {rendered : RenderedChart} {x y : UInt32}

theorem pixel_of_outside (h : ¬(x < rendered.width ∧ y < rendered.height)) :
    rendered.pixel x y = .outside := by
  refine pixelIn_eq_outside_iff.mpr ?_
  rw [← UInt32.not_lt, ← UInt32.not_lt]
  exact not_and_or.mp h

end RenderedChart

namespace BarChart

theorem render_of_refused {chart : BarChart} {width height : UInt32}
    (h : isCanvas width height = false) :
    chart.render width height = .error ⟨width.toNat, height.toNat⟩ := by
  rw [render, if_neg (Bool.eq_false_iff.mp h)]

/-- Rendering is safe on every canvas. It fails if a side is empty or too long, and otherwise it
gives a picture of exactly the size asked for, with three bytes for each pixel and an area for each
bar. Also where the plot is empty or lies beside its labels no corner of a bar is far from the
canvas, and every pixel can be read, and nothing else. For as many bars as there can be in memory no
sum, difference or product of pixels goes out of range on the way and nothing is written beside the
buffer. -/
theorem safe_on_every_canvas (samples : List Sample) (width height : UInt32) :
    ((width = 0 ∨ height = 0 ∨ 16384 < width.toNat ∨ 16384 < height.toNat) →
      (ofSamples samples).render width height = .error ⟨width.toNat, height.toNat⟩) ∧
    (¬(width = 0 ∨ height = 0 ∨ 16384 < width.toNat ∨ 16384 < height.toNat) →
      ∃ rendered, (ofSamples samples).render width height = .ok rendered ∧
        rendered.width = width ∧ rendered.height = height ∧
        rendered.pixels.size = 3 * width.toNat * height.toNat ∧
        rendered.barAreas.length = samples.length ∧
        (∀ a ∈ rendered.barAreas, ∀ edge ∈ [a.left, a.top, a.right, a.bottom],
          -15 ≤ edge ∧ edge ≤ 16384) ∧
        ∀ x y : UInt32,
          (x < width ∧ y < height → rendered.address x y + 2 < rendered.pixels.size ∧
            ∃ colour, rendered.pixel x y = .colour colour) ∧
          (¬(x < width ∧ y < height) → rendered.pixel x y = .outside)) ∧
    (samples.length < 2 ^ 63 →
      Checked.render (ofSamples samples) width height =
        some ((ofSamples samples).render width height)) := by
  refine ⟨?_, ?_, fun hbars => Checked.render_eq hbars width height⟩
  · intro hrefused
    exact render_of_refused (isCanvas_eq_false_iff.mpr hrefused)
  · intro haccepted
    have hcanvas : isCanvas width height = true := by
      rwa [← isCanvas_eq_false_iff, Bool.not_eq_false] at haccepted
    obtain ⟨hwidth, hheight⟩ := Settings.isCanvas_iff.mp hcanvas
    unfold maxCanvasSide at hwidth hheight
    have hnear : (Layout.ofSize width.toNat height.toNat).Near :=
      Layout.near_ofSize (by omega) (by omega)
    have hrender : (ofSamples samples).render width height = .ok _ :=
      render_eq_ok_iff.mpr ⟨hcanvas, rfl⟩
    refine ⟨_, hrender, rfl, rfl, Raster.size_paint _ _ _, ?_, ?_, ?_⟩
    · exact (List.length_map _).trans (length_ofSamples samples)
    · intro a ha edge hedge
      obtain ⟨hleft, htop, hright, hbottom⟩ := near_of_mem_barAreas hnear ha
      simp only [List.mem_cons, List.not_mem_nil, or_false] at hedge
      omega
    · intro x y
      refine ⟨?_, fun houtside => RenderedChart.pixel_of_outside houtside⟩
      rintro ⟨hx, hy⟩
      exact ⟨RenderedChart.address_lt hx hy (Raster.size_paint _ _ _), _,
        pixel_of_render hrender hx hy⟩

/-- A canvas whose margins and labels leave no row and no column for the plot. -/
theorem safe_without_plot :
    (Layout.ofSize 40 70).plot = ⟨25, 41, 25, 41⟩ ∧ three.length < 2 ^ 63 ∧
      Checked.render (ofSamples three) 40 70 = some ((ofSamples three).render 40 70) ∧
      ∃ rendered, (ofSamples three).render 40 70 = .ok rendered ∧ rendered.pixels.size = 8400 ∧
        rendered.barAreas.length = 3 ∧ (∃ colour, rendered.pixel 39 69 = .colour colour) ∧
        rendered.pixel 40 0 = .outside := by
  have hbars : three.length < 2 ^ 63 := by decide
  obtain ⟨_, haccepted, hchecked⟩ := safe_on_every_canvas three 40 70
  obtain ⟨rendered, hrender, _, _, hsize, hareas, _, hpixels⟩ := haccepted (by decide)
  exact ⟨by decide, hbars, hchecked hbars, rendered, hrender, hsize, hareas,
    ((hpixels 39 69).1 (by decide)).2, (hpixels 40 0).2 (by decide)⟩

end BarChart

end RehashChart
