import RehashChart.Proofs.Chart.BarHeights
import RehashChart.Proofs.Chart.Corners
import RehashChart.Proofs.Settings.Canvas

/-! # The step of the vertical axis

Every bound that the search compares with is a small multiple of the step and a number of its own,
so rounding cannot carry a height across it. Wherever the search stops, the axis is between four and
twelve steps long, or the step is one; and it goes on only while the axis is longer than ten steps,
so its products stay among the numbers of 64 bits.
-/

namespace RehashChart

open Binary64

namespace KeyPoints

/-- The search for a longer step, without a bound on how long it takes. All three products are made
before any of them is looked at, and the largest must be a number of 64 bits. -/
inductive Lengthened (range : Binary64) : Nat → Nat → Prop where
  | enough {step : Nat} : maxSteps.lt (stepsIn range step) = false → Lengthened range step step
  | found {step longer : Nat} : maxSteps.lt (stepsIn range step) = true →
      10 * step < UInt64.size → shorterCount? range step = some longer →
      Lengthened range step longer
  | next {step result : Nat} : maxSteps.lt (stepsIn range step) = true →
      10 * step < UInt64.size → shorterCount? range step = none →
      Lengthened range (10 * step) result → Lengthened range step result

structure Readable (last step : Nat) : Prop where
  form : ∃ d j : Nat, (d = 1 ∨ d = 2 ∨ d = 5) ∧ step = d * 10 ^ j
  few : last < 12 * step
  many : step = 1 ∨ 4 * step ≤ last

/-! ## Counting steps -/

theorem representable_multiple {c k : Nat} (hc : c ≤ 120) (hk : k ≤ 18) :
    Representable ((c * 10 ^ k : Nat) : Rat) := by
  refine ⟨c * 5 ^ k, k, ?_, by omega, by omega, ?_⟩
  · have hpow : 5 ^ k ≤ 5 ^ 18 := Nat.pow_le_pow_right (by decide) hk
    calc ((c : Int) * 5 ^ k).natAbs = c * 5 ^ k := by
          rw [Int.natAbs_mul, Int.natAbs_pow]
          rfl
      _ ≤ 120 * 5 ^ 18 := Nat.mul_le_mul hc hpow
      _ < significands := by decide
  · have hten : (10 : Rat) = 5 * 2 := by norm_num
    push_cast
    rw [zpow_natCast, hten, mul_pow, mul_assoc]

theorem maxSteps_hasValue : maxSteps.HasValue 11 := ofNat_hasValue (n := 11) (by decide)

section Search

variable {last d k : Nat}

theorem decade_le (hlast : last < 2 ^ 64) (hlong : k = 0 ∨ 10 * 10 ^ k < last) : k ≤ 18 := by
  by_contra hlate
  have hpow : 10 ^ 19 ≤ 10 ^ k := Nat.pow_le_pow_right (by decide) (by omega)
  omega

/-- The count of steps is a whole number, and no bound that is a small multiple of the step lies
between it and the exact one. -/
theorem exists_count (hlast : last < 2 ^ 64) (hd : 0 < d) (hd' : d ≤ 10) (hk : k ≤ 18) :
    ∃ n : Int, (stepsIn (ofNat last) (d * 10 ^ k)).HasValue n ∧
      ∀ c : Nat, c ≤ 12 → (last ≤ c * (d * 10 ^ k) → n ≤ c) ∧
        (c * (d * 10 ^ k) ≤ last → (c : Int) ≤ n) := by
  obtain ⟨y, hy, hy₀, hy₁, -⟩ := BarChart.exists_ofNat hlast
  have hstep : (ofNat (d * 10 ^ k)).HasValue ((d * 10 ^ k : Nat) : Rat) :=
    ofNat_of_representable (representable_multiple (by omega) hk)
  have hone : (1 : Rat) ≤ ((d * 10 ^ k : Nat) : Rat) := by
    exact_mod_cast Nat.mul_pos hd (Nat.pow_pos (by decide))
  have hpos : (0 : Rat) < ((d * 10 ^ k : Nat) : Rat) := by linarith
  obtain ⟨q, hq, hq₀, -⟩ := hy.div_between hstep hpos.ne' representable_zero
    (representable_two_pow (k := 64) (by decide)) (by positivity)
    ((div_le_self hy₀ hone).trans hy₁)
  have hquotient := hy.div_rounds hstep hpos.ne' hq
  refine ⟨q.ceil, hq.ceil, fun c hc => ?_⟩
  have hc' : RoundsTo c c := roundsTo_self (representable_natCast (by simp only [significands]; omega))
  have hmultiple : RoundsTo ((c * (d * 10 ^ k) : Nat) : Rat) ((c * (d * 10 ^ k) : Nat) : Rat) := by
    rw [← Nat.mul_assoc]
    exact roundsTo_self (representable_multiple (Nat.mul_le_mul hc hd') hk)
  constructor
  · intro hle
    have hheight := (roundsTo_of_ofNat hy).mono hmultiple (by exact_mod_cast hle)
    rw [Nat.cast_mul] at hheight
    exact Rat.ceil_le_iff.mpr (by exact_mod_cast hquotient.mono hc' ((div_le_iff₀ hpos).mpr hheight))
  · intro hle
    have hheight := hmultiple.mono (roundsTo_of_ofNat hy) (by exact_mod_cast hle)
    rw [Nat.cast_mul] at hheight
    have hcq : (c : Rat) ≤ q := hc'.mono hquotient ((le_div_iff₀ hpos).mpr hheight)
    exact_mod_cast hcq.trans Rat.le_ceil

/-- The test for going on: the axis is longer than eleven steps if it is passed, and shorter than
twelve if not. -/
theorem bounds_of_going_on (hlast : last < 2 ^ 64) (hk : k ≤ 18) :
    (maxSteps.lt (stepsIn (ofNat last) (10 ^ k)) = true → 11 * 10 ^ k < last) ∧
      (maxSteps.lt (stepsIn (ofNat last) (10 ^ k)) = false → last < 12 * 10 ^ k) := by
  obtain ⟨n, hn, hcount⟩ := exists_count (d := 1) hlast (by decide) (by decide) hk
  rw [Nat.one_mul] at hn hcount
  have heleven := (hcount 11 (by decide)).1
  have htwelve := (hcount 12 (by decide)).2
  have hlt : ((11 : Rat) < n) ↔ 11 < n := by exact_mod_cast Iff.rfl
  rw [maxSteps_hasValue.lt_eq hn, decide_eq_true_eq, decide_eq_false_iff_not, hlt]
  omega

/-- The test for stopping: the axis is shorter than eleven of the longer steps if it is passed, and
longer than ten if not. -/
theorem bounds_of_stopping (hlast : last < 2 ^ 64) (hd : 0 < d) (hd' : d ≤ 10) (hk : k ≤ 18) :
    ((stepsIn (ofNat last) (d * 10 ^ k)).lt maxSteps = true → last < 11 * (d * 10 ^ k)) ∧
      ((stepsIn (ofNat last) (d * 10 ^ k)).lt maxSteps = false → 10 * (d * 10 ^ k) < last) := by
  obtain ⟨n, hn, hcount⟩ := exists_count hlast hd hd' hk
  have hten := (hcount 10 (by decide)).1
  have heleven := (hcount 11 (by decide)).2
  have hlt : ((n : Rat) < 11) ↔ n < 11 := by exact_mod_cast Iff.rfl
  rw [hn.lt_eq maxSteps_hasValue, decide_eq_true_eq, decide_eq_false_iff_not, hlt]
  omega

/-! ## One round of the search -/

/-- A round that is entered finds a readable step, or the axis is longer than ten of the next ones.
-/
theorem round_spec (hlast : last < 2 ^ 64) (hk : k ≤ 18) (hlong : 11 * 10 ^ k < last) :
    (∀ longer, shorterCount? (ofNat last) (10 ^ k) = some longer → Readable last longer) ∧
      (shorterCount? (ofNat last) (10 ^ k) = none → 10 * 10 ^ (k + 1) < last) := by
  obtain ⟨htwo, htwo'⟩ := bounds_of_stopping (d := 2) hlast (by decide) (by decide) hk
  obtain ⟨hfive, hfive'⟩ := bounds_of_stopping (d := 5) hlast (by decide) (by decide) hk
  obtain ⟨hten, hten'⟩ := bounds_of_stopping (d := 10) hlast (by decide) (by decide) hk
  have hpow : 10 ^ (k + 1) = 10 * 10 ^ k := Nat.pow_succ'
  simp only [shorterCount?, List.find?_cons, List.find?_nil]
  cases htwo? : (stepsIn (ofNat last) (2 * 10 ^ k)).lt maxSteps with
  | true =>
      have hfew := htwo htwo?
      refine ⟨?_, nofun⟩
      rintro _ ⟨rfl⟩
      exact ⟨⟨2, k, by decide, rfl⟩, by omega, by omega⟩
  | false =>
      have hmany := htwo' htwo?
      cases hfive? : (stepsIn (ofNat last) (5 * 10 ^ k)).lt maxSteps with
      | true =>
          have hfew := hfive hfive?
          refine ⟨?_, nofun⟩
          rintro _ ⟨rfl⟩
          exact ⟨⟨5, k, by decide, rfl⟩, by omega, by omega⟩
      | false =>
          have hmany := hfive' hfive?
          cases hten? : (stepsIn (ofNat last) (10 * 10 ^ k)).lt maxSteps with
          | true =>
              have hfew := hten hten?
              refine ⟨?_, nofun⟩
              rintro _ ⟨rfl⟩
              exact ⟨⟨1, k + 1, by decide, by omega⟩, by omega, by omega⟩
          | false =>
              have hmany := hten' hten?
              exact ⟨nofun, fun _ => by omega⟩

/-! ## The whole search -/

/-- At a power of ten that the axis is more than ten times as long as, or at one, the search ends
within the decades that are left below `10 ^ 19`. -/
theorem lengthenStep_spec (hlast : last < 2 ^ 64) :
    ∀ (decades k : Nat), 19 ≤ k + decades → (k = 0 ∨ 10 * 10 ^ k < last) →
      Lengthened (ofNat last) (10 ^ k) (lengthenStep (ofNat last) decades (10 ^ k)) ∧
        Readable last (lengthenStep (ofNat last) decades (10 ^ k)) := by
  intro decades
  -- the axis is more than ten steps long whenever a decade is used up, so `k` stays below 19
  induction decades with
  | zero =>
      intro k henough hlong
      have hk := decade_le hlast hlong
      omega
  | succ decades ih =>
      intro k henough hlong
      have hk := decade_le hlast hlong
      obtain ⟨hmore, hless⟩ := bounds_of_going_on hlast hk
      cases hon : maxSteps.lt (stepsIn (ofNat last) (10 ^ k)) with
      | false =>
          rw [lengthenStep, hon, if_neg (by decide)]
          have hfew := hless hon
          refine ⟨.enough hon, ⟨1, k, by decide, by omega⟩, hfew, ?_⟩
          rcases hlong with rfl | hlong
          · exact .inl rfl
          · exact .inr (by omega)
      | true =>
          have hlong' := hmore hon
          have hfits : 10 * 10 ^ k < UInt64.size := by
            simp only [UInt64.size]
            omega
          obtain ⟨hsome, hnone⟩ := round_spec hlast hk hlong'
          rw [lengthenStep, hon, if_pos rfl]
          cases hround : shorterCount? (ofNat last) (10 ^ k) with
          | some longer => exact ⟨.found hon hfits hround, hsome longer hround⟩
          | none =>
              have hpow : 10 ^ (k + 1) = 10 * 10 ^ k := Nat.pow_succ'
              have hrest := ih (k + 1) (by omega) (.inr (hnone hround))
              rw [hpow] at hrest
              exact ⟨.next hon hfits hround hrest.1, hrest.2⟩

/-- The search ends for every end of 64 bits, and with a step that is readable. -/
theorem wholeStep_spec (hlast : last < 2 ^ 64) :
    Lengthened (ofNat last) 1 (wholeStep last) ∧ Readable last (wholeStep last) :=
  lengthenStep_spec hlast 20 0 (by decide) (.inl rfl)

end Search

namespace Readable

variable {last step : Nat}

theorem pos (h : Readable last step) : 0 < step := by
  have hfew := h.few
  omega

theorem steps (h : Readable last step) (hlast : 1 ≤ last) :
    (1 ≤ last / step ∧ last / step ≤ 11) ∧ (4 ≤ last → 4 ≤ last / step) := by
  have hfew : last / step < 12 := (Nat.div_lt_iff_lt_mul h.pos).mpr h.few
  have hmany : step = 1 ∨ 4 ≤ last / step :=
    h.many.imp_right (Nat.le_div_iff_mul_le h.pos).mpr
  refine ⟨⟨?_, by omega⟩, fun hfour => ?_⟩
  · rcases hmany with rfl | hmany
    · rwa [Nat.div_one]
    · omega
  · rcases hmany with rfl | hmany
    · rwa [Nat.div_one]
    · exact hmany

end Readable

/-- The key points are the multiples of the step up to the end of the axis. -/
theorem mem_whole_iff {last n : Nat} (hstep : 0 < wholeStep last) :
    n ∈ whole last ↔ wholeStep last ∣ n ∧ n ≤ last := by
  simp only [whole, List.mem_map, List.mem_range]
  constructor
  · rintro ⟨k, hk, rfl⟩
    exact ⟨Nat.dvd_mul_left _ k, (Nat.le_div_iff_mul_le hstep).mp (by omega)⟩
  · rintro ⟨⟨k, rfl⟩, hle⟩
    rw [Nat.mul_comm] at hle ⊢
    exact ⟨k, Nat.lt_succ_of_le ((Nat.le_div_iff_mul_le hstep).mpr hle), rfl⟩

end KeyPoints

namespace BarChart

/-! ## Rows of ticks -/

section Rows

variable {chart : BarChart} {plot : Area}

theorem row_antitone (hplot : plot.top ≤ plot.bottom - 1)
    (hsmall : plot.bottom - 1 - plot.top ≤ 2 ^ 20) {low high : Nat} (h : low ≤ high)
    (h' : high ≤ chart.yMax) : chart.row plot high ≤ chart.row plot low := by
  have hrise : chart.rise (plot.bottom - 1 - plot.top) low ≤
      chart.rise (plot.bottom - 1 - plot.top) high := (rise_le (by omega) hsmall h h').2.1
  rw [row_eq hplot hsmall h', row_eq hplot hsmall (h.trans h')]
  omega

theorem rows_of_ticks (chart : BarChart) (plot : Area) (hplot : plot.top ≤ plot.bottom - 1)
    (hsmall : plot.bottom - 1 - plot.top ≤ 2 ^ 20) :
    (chart.yKeyPoints.map (chart.row plot)).Pairwise (· ≥ ·) ∧
      (chart.yKeyPoints.map (chart.row plot)).head? = some (plot.bottom - 1) ∧
      (∀ y ∈ chart.yKeyPoints.map (chart.row plot), plot.top ≤ y ∧ y ≤ plot.bottom - 1) ∧
      chart.tickRows plot = chart.yKeyPoints.map (chart.row plot) := by
  have hbounds : ∀ y ∈ chart.yKeyPoints.map (chart.row plot),
      plot.top ≤ y ∧ y ≤ plot.bottom - 1 := by
    intro y hy
    obtain ⟨n, hn, rfl⟩ := List.mem_map.mp hy
    obtain ⟨htop, hbottom, -⟩ := row_bounds chart plot hplot hsmall (le_yMax_of_mem_yKeyPoints hn)
    exact ⟨htop, hbottom⟩
  refine ⟨?_, ?_, hbounds, ?_⟩
  · rw [List.pairwise_map]
    have hincreasing : chart.yKeyPoints.Pairwise (· ≤ ·) :=
      List.pairwise_map.mpr (List.pairwise_lt_range.imp fun h => Nat.mul_le_mul_right _ h.le)
    exact hincreasing.imp_of_mem fun _ hn h =>
      row_antitone hplot hsmall h (le_yMax_of_mem_yKeyPoints hn)
  · have hzero := (row_bounds chart plot hplot hsmall (Nat.zero_le _)).2.2 rfl
    rw [yKeyPoints, KeyPoints.whole, List.range_succ_eq_map, List.map_cons, List.map_cons,
      List.head?_cons, Nat.zero_mul, hzero]
  · rw [tickRows, List.filter_eq_self]
    intro y hy
    obtain ⟨htop, hbottom⟩ := hbounds y hy
    simp only [isBetween, Bool.and_eq_true, decide_eq_true_eq]
    omega

end Rows

/-- The vertical axis stays readable for all heights. Its ticks are the multiples of a step that is
one, two or five times a power of ten; the search for the step ends, and neither its products nor
the ticks leave the numbers of 64 bits. There are between two and twelve ticks, and at least five as
soon as the axis reaches four. On every canvas that the plot fits on they go up from its bottom row.
-/
theorem vertical_ticks_readable (chart : BarChart) :
    ∃ step, (∃ d j : Nat, (d = 1 ∨ d = 2 ∨ d = 5) ∧ step = d * 10 ^ j) ∧
      KeyPoints.Lengthened (ofNat chart.yMax) 1 step ∧
      chart.yKeyPoints = (List.range (chart.yMax / step + 1)).map (· * step) ∧
      (∀ n, n ∈ chart.yKeyPoints ↔ step ∣ n ∧ n ≤ chart.yMax) ∧
      (∀ n ∈ chart.yKeyPoints, n ≤ 2 ^ 64 - 1) ∧
      (2 ≤ chart.yKeyPoints.length ∧ chart.yKeyPoints.length ≤ 12) ∧
      (4 ≤ chart.yMax → 5 ≤ chart.yKeyPoints.length) ∧
      ∀ width height : UInt32, isCanvas width height = true →
        91 ≤ width.toNat → 102 ≤ height.toNat →
          let plot := (Layout.ofSize width.toNat height.toNat).plot
          let rows := chart.yKeyPoints.map (chart.row plot)
          rows.Pairwise (· ≥ ·) ∧ rows.head? = some (height.toNat - 61 : Int) ∧
            (∀ y ∈ rows, 41 ≤ y ∧ y ≤ (height.toNat - 61 : Int)) ∧ chart.tickRows plot = rows := by
  obtain ⟨hpos, hmax⟩ := chart.yMax_bounds
  obtain ⟨hsearch, hreadable⟩ := KeyPoints.wholeStep_spec hmax
  obtain ⟨hsteps, hfour⟩ := hreadable.steps hpos
  have hlength : chart.yKeyPoints.length = chart.yMax / KeyPoints.wholeStep chart.yMax + 1 := by
    rw [yKeyPoints, KeyPoints.whole, List.length_map, List.length_range]
  refine ⟨_, hreadable.form, hsearch, rfl, fun n => KeyPoints.mem_whole_iff hreadable.pos, ?_,
    by omega, fun h => ?_, ?_⟩
  · intro n hn
    have hle := le_yMax_of_mem_yKeyPoints hn
    omega
  · have hfive := hfour h
    omega
  · intro width height hcanvas hwidth hheight
    obtain ⟨-, -, hheight'⟩ := Settings.isCanvas_iff.mp hcanvas
    simp only [maxCanvasSide] at hheight'
    have hrows := rows_of_ticks chart ⟨75, 41, width.toNat - 15, height.toNat - 60⟩
      (by simp only; omega) (by simp only; omega)
    have hbottom : (height.toNat : Int) - 60 - 1 = height.toNat - 61 := by omega
    rw [hbottom] at hrows
    dsimp only
    rw [Layout.plot_ofSize (by omega) (by omega)]
    exact hrows

/-- The longest axis of all: its ticks are ten, from the bottom row of the plot to its upper part.
-/
theorem extremes_readable :
    extremes.yMax = 2 ^ 64 - 1 ∧ KeyPoints.wholeStep extremes.yMax = 2 * 10 ^ 18 ∧
      extremes.yKeyPoints = (List.range 10).map (· * (2 * 10 ^ 18)) ∧
      isCanvas 700 550 = true ∧ (extremes.tickRows (Layout.ofSize 700 550).plot).length = 10 ∧
      (extremes.tickRows (Layout.ofSize 700 550).plot).Pairwise (· ≥ ·) ∧
      (extremes.tickRows (Layout.ofSize 700 550).plot).head? = some 489 ∧
      ∀ y ∈ extremes.tickRows (Layout.ofSize 700 550).plot, 41 ≤ y ∧ y ≤ 489 := by
  have hyMax : extremes.yMax = 2 ^ 64 - 1 := by decide +kernel
  have hstep : KeyPoints.wholeStep extremes.yMax = 2 * 10 ^ 18 := by decide +kernel
  have hpoints : extremes.yKeyPoints = (List.range 10).map (· * (2 * 10 ^ 18)) := by
    have hcount : (2 ^ 64 - 1) / (2 * 10 ^ 18) + 1 = 10 := by decide
    rw [yKeyPoints, KeyPoints.whole, hstep, hyMax, hcount]
  have hcanvas : isCanvas 700 550 = true := by decide
  obtain ⟨_, -, -, -, -, -, -, -, hrows⟩ := vertical_ticks_readable extremes
  obtain ⟨horder, hhead, hbounds, hall⟩ := hrows 700 550 hcanvas (by decide) (by decide)
  have hsize : (Layout.ofSize (700 : UInt32).toNat (550 : UInt32).toNat).plot =
      (Layout.ofSize 700 550).plot := rfl
  rw [hsize] at horder hhead hbounds hall
  rw [← hall] at horder hhead hbounds
  refine ⟨hyMax, hstep, hpoints, hcanvas, ?_, horder, hhead, hbounds⟩
  rw [hall, List.length_map, hpoints]
  rfl

end BarChart

end RehashChart
