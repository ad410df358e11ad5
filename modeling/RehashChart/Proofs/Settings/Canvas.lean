import RehashChart.Host.Machine
import RehashChart.Proofs.Binary64.Arithmetic
import RehashChart.Proofs.Files.Disk
import RehashChart.Run.Pipeline

/-! # Settings that can be rendered

The settings are accepted if the sides before rounding lie in one interval, and the canvas is
accepted if the rounded sides lie in another; both say the same.
-/

namespace RehashChart

namespace Binary64

variable {x y : Binary64} {q : Rat}

/-! ## Rounded numbers -/

theorem roundAway_nonpos (h : q < 0) : roundAway q ≤ 0 := by
  have hfloor : 0 ≤ (-q + 1 / 2).floor := Rat.le_floor_iff.mpr (by push_cast; linarith)
  rw [roundAway, if_pos h, mkRat_one_two]
  omega

theorem lt_roundAway_iff {n : Int} (hn : 0 ≤ n) : n < roundAway q ↔ (n : Rat) + 1 / 2 ≤ q := by
  have hn' : (0 : Rat) ≤ n := by exact_mod_cast hn
  by_cases hq : q < 0
  · have hround := roundAway_nonpos hq
    constructor
    · intro h
      omega
    · intro h
      linarith
  · rw [roundAway_of_nonneg (not_lt.mp hq), ← Int.add_one_le_iff, Rat.le_floor_iff]
    push_cast
    constructor
    · intro h
      linarith
    · intro h
      linarith

theorem toNat32_lt (x : Binary64) : x.toNat32 < UInt32.size := by
  have hbounds : 0 ≤ x.clampTo 0 (UInt32.size - 1) ∧ x.clampTo 0 (UInt32.size - 1) < UInt32.size := by
    cases x with
    | nan => decide
    | infinity s => cases s <;> decide
    | finite s m e h =>
        simp only [clampTo, UInt32.size]
        omega
  rw [toNat32]
  omega

theorem toNat32_eq {k : Int} (h : x.HasValue k) :
    (x.toNat32 : Int) = max 0 (min ((UInt32.size : Int) - 1) k) := by
  rw [toNat32, h.clampTo_eq, truncated_intCast, Int.toNat_of_nonneg (le_max_left _ _)]

theorem not_hasValue_nan : ¬nan.HasValue q := fun h => Bool.false_ne_true h.finite

theorem not_hasValue_infinity (s : Bool) : ¬(infinity s).HasValue q :=
  fun h => Bool.false_ne_true h.finite

/-- Where the rounded number lies, told from the number; what is no finite number lies nowhere. -/
theorem round_toNat32_between_iff {n : Nat} (hn : n + 1 < UInt32.size) :
    1 ≤ x.round.toNat32 ∧ x.round.toNat32 ≤ n ↔
      ∃ q, x.HasValue q ∧ 1 / 2 ≤ q ∧ q < (n : Rat) + 1 / 2 := by
  cases x with
  | nan =>
      constructor
      · rintro ⟨h, -⟩
        exact absurd h (by decide)
      · rintro ⟨q, hq, -⟩
        exact absurd hq not_hasValue_nan
  | infinity s =>
      constructor
      · rintro ⟨hlow, hhigh⟩
        cases s with
        | true => exact absurd hlow (by decide)
        | false =>
            have hmax : (infinity false).round.toNat32 = UInt32.size - 1 := by decide
            omega
      · rintro ⟨q, hq, -⟩
        exact absurd hq (not_hasValue_infinity s)
  | finite s m e h =>
      have hvalue : (finite s m e h).HasValue (finite s m e h).toRat := ⟨rfl, rfl⟩
      have hround := toNat32_eq hvalue.round
      have hlow := lt_roundAway_iff (q := (finite s m e h).toRat) (le_refl (0 : Int))
      have hhigh := lt_roundAway_iff (q := (finite s m e h).toRat) (Int.natCast_nonneg n)
      rw [Int.cast_zero, zero_add] at hlow
      rw [Int.cast_natCast] at hhigh
      constructor
      · rintro ⟨h₁, h₂⟩
        refine ⟨_, hvalue, hlow.mp ?_, not_le.mp fun hmore => ?_⟩
        · omega
        · have := hhigh.mpr hmore
          omega
      · rintro ⟨q, hq, h₁, h₂⟩
        rw [hq.unique hvalue] at h₁ h₂
        have hpos := hlow.mpr h₁
        have hless := mt hhigh.mp (not_le.mpr h₂)
        omega

/-- A product that is a number is one of numbers. -/
theorem exists_factors (h : (x * y).HasValue q) :
    ∃ p r, x.HasValue p ∧ y.HasValue r ∧ RoundsTo (p * r) q := by
  have hzero : ∀ s (z : Binary64),
      ¬(if z.toRat = 0 then nan else infinity s : Binary64).HasValue q := by
    intro s z
    split
    · exact not_hasValue_nan
    · exact not_hasValue_infinity s
  cases x with
  | nan => exact absurd h not_hasValue_nan
  | infinity s =>
      cases y with
      | nan => exact absurd h not_hasValue_nan
      | infinity t => exact absurd h (not_hasValue_infinity _)
      | finite t n f hd => exact absurd h (hzero _ (finite t n f hd))
  | finite s m e hc =>
      cases y with
      | nan => exact absurd h not_hasValue_nan
      | infinity t => exact absurd h (hzero _ (finite s m e hc))
      | finite t n f hd =>
          have hx : (finite s m e hc).HasValue (finite s m e hc).toRat := ⟨rfl, rfl⟩
          have hy : (finite t n f hd).HasValue (finite t n f hd).toRat := ⟨rfl, rfl⟩
          obtain ⟨u, hmul⟩ := hx.mul_eq hy
          rw [hmul] at h
          exact ⟨_, _, hx, hy, roundsTo_of_hasValue h⟩

theorem pos_of_mul_ofNat {n : Nat} (h : (x * ofNat n).HasValue q) (hq : 0 < q) :
    (0 : Binary64).lt x = true ∧ n ≠ 0 := by
  obtain ⟨p, r, hp, hr, hrounds⟩ := exists_factors h
  have hproduct : 0 < p * r := by
    by_contra hnot
    exact absurd (hrounds.nonpos (not_lt.mp hnot)) (not_le.mpr hq)
  have hnonneg : 0 ≤ r := by
    rw [ofNat_eq_ofRat] at hr
    exact (roundsTo_of_hasValue hr).nonneg (by positivity)
  constructor
  · rw [zero_hasValue.lt_eq hp, decide_eq_true_eq]
    exact pos_of_mul_pos_left hproduct hnonneg
  · rintro rfl
    rw [hr.unique zero_hasValue, mul_zero] at hproduct
    exact absurd hproduct (lt_irrefl 0)

end Binary64

namespace Settings

/-- A length in pixels, before it is rounded, that a side of a canvas can have. -/
def IsSide (x : Binary64) : Prop :=
  ∃ q, x.HasValue q ∧ 1 / 2 ≤ q ∧ q < (maxCanvasSide : Rat) + 1 / 2

theorem isCanvas_iff {width height : UInt32} :
    isCanvas width height = true ↔
      (1 ≤ width.toNat ∧ width.toNat ≤ maxCanvasSide) ∧
        1 ≤ height.toNat ∧ height.toNat ≤ maxCanvasSide := by
  have hzero : ∀ side : UInt32, side ≠ 0 ↔ 1 ≤ side.toNat := by
    intro side
    rw [← UInt32.toNat_inj.ne, UInt32.toNat_zero]
    omega
  simp only [isCanvas, Bool.and_eq_true, decide_eq_true_eq, hzero]
  constructor
  · intro h
    obtain ⟨⟨⟨hwidth, hheight⟩, hwidth'⟩, hheight'⟩ := h
    exact ⟨⟨hwidth, hwidth'⟩, hheight, hheight'⟩
  · intro h
    obtain ⟨⟨hwidth, hwidth'⟩, hheight, hheight'⟩ := h
    exact ⟨⟨⟨hwidth, hheight⟩, hwidth'⟩, hheight'⟩

theorem pixels_between_iff (inches : Binary64) (dpi : UInt32) :
    1 ≤ (pixels inches dpi).toNat ∧ (pixels inches dpi).toNat ≤ maxCanvasSide ↔
      IsSide (inches * Binary64.ofNat dpi.toNat) := by
  rw [pixels, UInt32.toNat_ofNat_of_lt' (Binary64.toNat32_lt _)]
  exact Binary64.round_toNat32_between_iff (by decide)

theorem isCanvas_canvasSize_iff (s : Settings) :
    isCanvas s.canvasSize.1 s.canvasSize.2 = true ↔
      IsSide (s.chart.width * Binary64.ofNat s.chart.dpi.toNat) ∧
        IsSide (s.chart.height * Binary64.ofNat s.chart.dpi.toNat) := by
  rw [isCanvas_iff, canvasSize]
  exact and_congr (pixels_between_iff _ _) (pixels_between_iff _ _)

/-- What is long enough to be a side comes from a positive length and a positive resolution. -/
theorem IsSide.pos {inches : Binary64} {dpi : UInt32}
    (h : IsSide (inches * Binary64.ofNat dpi.toNat)) :
    (0 : Binary64).lt inches = true ∧ dpi ≠ 0 := by
  obtain ⟨q, hq, hlow, -⟩ := h
  obtain ⟨hinches, hdpi⟩ := Binary64.pos_of_mul_ofNat hq (by linarith)
  refine ⟨hinches, ?_⟩
  rintro rfl
  exact hdpi rfl

theorem validate_of_pos {s : Settings} (hwidth : (0 : Binary64).lt s.chart.width = true)
    (hheight : (0 : Binary64).lt s.chart.height = true) (hdpi : s.chart.dpi ≠ 0) :
    s.validate =
      if isCanvas s.canvasSize.1 s.canvasSize.2 then .ok ()
      else .error (.canvas s.canvasSize.1.toNat s.canvasSize.2.toNat) := by
  simp [validate, hwidth, hheight, hdpi]

theorem isCanvas_of_validate {s : Settings} (h : s.validate = .ok ()) :
    isCanvas s.canvasSize.1 s.canvasSize.2 = true := by
  unfold validate at h
  dsimp only at h
  split at h
  · cases h
  · split at h
    · cases h
    · split at h
      · assumption
      · cases h

theorem validate_eq_ok_iff (s : Settings) :
    s.validate = .ok () ↔
      IsSide (s.chart.width * Binary64.ofNat s.chart.dpi.toNat) ∧
        IsSide (s.chart.height * Binary64.ofNat s.chart.dpi.toNat) := by
  rw [← isCanvas_canvasSize_iff]
  constructor
  · exact isCanvas_of_validate
  · intro hcanvas
    obtain ⟨hwidth, hheight⟩ := (isCanvas_canvasSize_iff s).mp hcanvas
    rw [validate_of_pos hwidth.pos.1 hheight.pos.1 hwidth.pos.2, if_pos hcanvas]

theorem validate_of_read {file : Option File} {environment : Environment} {s : Settings}
    (h : Settings.read file environment = .ok s) : s.validate = .ok () := by
  obtain ⟨source, -, h⟩ := bind_eq_ok.mp h
  obtain ⟨tree, -, h⟩ := bind_eq_ok.mp h
  obtain ⟨settings, -, h⟩ := bind_eq_ok.mp h
  obtain ⟨⟨⟩, hvalid, h⟩ := bind_eq_ok.mp h
  cases h
  exact mapError_eq_ok.mp hvalid

end Settings

/-! ## Rendering -/

theorem render_eq_error_iff (chart : BarChart) (width height : UInt32) :
    (∃ e, chart.render width height = .error e) ↔ isCanvas width height = false := by
  unfold BarChart.render
  cases isCanvas width height <;> simp

theorem exists_render (chart : BarChart) {width height : UInt32}
    (h : isCanvas width height = true) :
    ∃ rendered, chart.render width height = .ok rendered :=
  ⟨_, by rw [BarChart.render, if_pos h]⟩

/-- The settings are accepted exactly if both sides in pixels, before they are rounded, can be sides
of a canvas; a chart is rendered exactly if the rounded ones are; so settings that have been read
can be rendered, and settings that are refused although they are positive cannot. -/
theorem accepted_iff_renders :
    (∀ s : Settings, s.validate = .ok () ↔
      Settings.IsSide (s.chart.width * Binary64.ofNat s.chart.dpi.toNat) ∧
        Settings.IsSide (s.chart.height * Binary64.ofNat s.chart.dpi.toNat)) ∧
    (∀ (s : Settings) (chart : BarChart),
      (∃ e, chart.render s.canvasSize.1 s.canvasSize.2 = .error e) ↔
        ¬((1 ≤ s.canvasSize.1.toNat ∧ s.canvasSize.1.toNat ≤ maxCanvasSide) ∧
          1 ≤ s.canvasSize.2.toNat ∧ s.canvasSize.2.toNat ≤ maxCanvasSide)) ∧
    (∀ (path : String) (machine : Machine) (s : Settings),
      ((readSettings path : StateM Machine _) machine).1 = .ok s → ∀ chart : BarChart,
        ∃ rendered, chart.render s.canvasSize.1 s.canvasSize.2 = .ok rendered) ∧
    (∀ (s : Settings) (reason : Settings.Refusal), s.validate = .error reason →
      (0 : Binary64).lt s.chart.width = true → (0 : Binary64).lt s.chart.height = true →
        0 < s.chart.dpi → ∀ chart : BarChart,
          ∃ e, chart.render s.canvasSize.1 s.canvasSize.2 = .error e) := by
  refine ⟨Settings.validate_eq_ok_iff, ?_, ?_, ?_⟩
  · intro s chart
    rw [render_eq_error_iff, ← Settings.isCanvas_iff, Bool.not_eq_true]
  · intro path machine s hread chart
    exact exists_render chart (Settings.isCanvas_of_validate (Settings.validate_of_read hread))
  · intro s reason hrefused hwidth hheight hdpi chart
    rw [render_eq_error_iff]
    have hdpi' : s.chart.dpi ≠ 0 := by
      intro hzero
      rw [hzero] at hdpi
      exact absurd hdpi (by decide)
    rw [Settings.validate_of_pos hwidth hheight hdpi'] at hrefused
    split at hrefused
    · cases hrefused
    · rename_i hnot
      exact Bool.eq_false_iff.mpr hnot

/-- Half a pixel is rounded up to a side of one pixel, and half a pixel too much to one side too
many. -/
def halfPixels : Settings :=
  { Settings.default with chart := ⟨.ofRat false (mkRat 32769 2), .ofRat false (mkRat 1 2), 1, true⟩ }

theorem halfPixels_refused :
    halfPixels.validate = .error (.canvas 16385 1) ∧
      ∀ chart : BarChart, ∃ e,
        chart.render halfPixels.canvasSize.1 halfPixels.canvasSize.2 = .error e := by
  have hrefused : halfPixels.validate = .error (.canvas 16385 1) := by decide +kernel
  exact ⟨hrefused, accepted_iff_renders.2.2.2 halfPixels _ hrefused (by decide +kernel)
    (by decide +kernel) (by decide)⟩

end RehashChart
