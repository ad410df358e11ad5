import RehashChart.Proofs.Json.Worth
import RehashChart.Proofs.Settings.Precedence
import RehashChart.Settings.Json

/-! # Settings as JSON text, written and read back

A size is read back with its last digits worked out in binary64 arithmetic, so it may come back as a
neighbour of the number that was written; the text itself still tells settings apart.
-/

namespace RehashChart

open Json (Reading Returned Value numberReading)

/-! ## Structures -/

namespace Json

variable {σ : Type} {names : List String} {set : Setter σ}

theorem idxOf?_getElem (hnodup : names.Nodup) {i : Nat} (hi : i < names.length) :
    names.idxOf? names[i] = some i := by
  refine List.idxOf?_eq_some_iff.mpr ⟨hi, rfl, ?_⟩
  intro j hj hsame
  exact hj.ne ((hnodup.getElem_inj_iff).mp hsame)

/-- From some field on, the members of an object are taken as the items of a list if they are all
there and in order. -/
theorem setMembers_drop (hnodup : names.Nodup) (values : List Reading) {i : Nat} {seen : List Nat}
    (hlength : i + values.length = names.length) (hseen : ∀ j ∈ seen, j < i) (s : σ) :
    setMembers names set seen (((names.drop i).map some).zip values) s =
      setItems names.length set i values s := by
  induction values generalizing i seen s with
  | nil => rw [List.zip_nil_right, setMembers, setItems]
  | cons value values ih =>
      rw [List.length_cons] at hlength
      have hi : i < names.length := by omega
      have hnew : i ∉ seen := fun h => (hseen i h).ne rfl
      have hseen' : ∀ j ∈ i :: seen, j < i + 1 := by
        intro j hj
        rcases List.mem_cons.mp hj with rfl | hj
        · exact Nat.lt_succ_self j
        · exact (hseen j hj).trans (Nat.lt_succ_self i)
      rw [List.drop_eq_getElem_cons hi, List.map_cons, List.zip_cons_cons, setMembers,
        idxOf?_getElem hnodup hi, setItems, if_pos hi]
      dsimp only
      rw [if_neg hnew]
      congr 1
      funext s'
      exact ih (by omega) hseen' s'

theorem setFields_object (set : Setter σ) (hnodup : names.Nodup) (values : List Reading)
    (hlength : values.length = names.length) (start : σ) :
    setFields names set start (.object ((names.map some).zip values)) =
      setFields names set start (.list values) := by
  have hlength' : 0 + values.length = names.length := (Nat.zero_add _).trans hlength
  exact setMembers_drop hnodup values hlength' (by simp) start

theorem setItems_cons {count i : Nat} {item : Reading} {s s' : σ} (rest : List Reading)
    (hi : i < count) (hset : set i item s = .ok s') :
    setItems count set i (item :: rest) s = setItems count set (i + 1) rest s' := by
  rw [setItems, if_pos hi, hset]
  rfl

end Json

/-! ## The sections -/

theorem Paths.ofJson_reading (p : Paths) : Paths.ofJson p.toJson.reading = .ok p :=
  Json.setFields_object Paths.setField (by decide : ["input", "output"].Nodup)
    [.text (some p.input), .text (some p.output)] rfl _

theorem LogSettings.ofJson_reading (l : LogSettings) :
    LogSettings.ofJson l.toJson.reading = .ok l :=
  Json.setFields_object LogSettings.setField (by decide : ["level", "file"].Nodup)
    [.text (some l.level), .text (some l.file)] rfl _

theorem ChartSettings.ofJson_reading (c : ChartSettings) {width height : Binary64}
    (hwidth : (numberReading c.width).toNumber = .ok width)
    (hheight : (numberReading c.height).toNumber = .ok height) :
    ChartSettings.ofJson c.toJson.reading = .ok { c with width, height } := by
  have hdpi := Json.toWord_natural c.dpi.toNat_lt
  rw [UInt32.ofNat_toNat] at hdpi
  have hsetWidth : ChartSettings.setField 0 (numberReading c.width) .default =
      .ok { ChartSettings.default with width } := by
    rw [ChartSettings.setField, hwidth]
    rfl
  have hsetHeight : ChartSettings.setField 1 (numberReading c.height)
      { ChartSettings.default with width } = .ok { ChartSettings.default with width, height } := by
    rw [ChartSettings.setField, hheight]
    rfl
  have hsetDpi : ChartSettings.setField 2 (Value.natural c.dpi.toNat).reading
      { ChartSettings.default with width, height } =
        .ok { ChartSettings.default with width, height, dpi := c.dpi } := by
    rw [ChartSettings.setField, hdpi]
    rfl
  have hobject := Json.setFields_object ChartSettings.setField
    (by decide : ["width", "height", "dpi", "show"].Nodup)
    [numberReading c.width, numberReading c.height, (Value.natural c.dpi.toNat).reading,
      .boolean c.shown] rfl .default
  refine hobject.trans ?_
  rw [Json.setFields, Json.setItems_cons _ (by decide) hsetWidth,
    Json.setItems_cons _ (by decide) hsetHeight, Json.setItems_cons _ (by decide) hsetDpi]
  rfl

namespace Settings

/-! ## The whole -/

def HasFiniteSizes (s : Settings) : Prop :=
  s.chart.width.isFinite = true ∧ s.chart.height.isFinite = true

theorem ofJson_compact (s : Settings) {width height : Binary64}
    (hwidth : (numberReading s.chart.width).toNumber = .ok width)
    (hheight : (numberReading s.chart.height).toNumber = .ok height) :
    ofJson s.toJson.compact = .ok { s with chart := { s.chart with width, height } } := by
  have hsetPaths : setField 0 s.paths.toJson.reading .default =
      .ok { Settings.default with paths := s.paths } := by
    rw [setField, Paths.ofJson_reading]
    rfl
  have hsetChart : setField 1 s.chart.toJson.reading { Settings.default with paths := s.paths } =
      .ok { Settings.default with paths := s.paths, chart := { s.chart with width, height } } := by
    rw [setField, ChartSettings.ofJson_reading s.chart hwidth hheight]
    rfl
  have hsetLog : setField 2 s.log.toJson.reading
      { Settings.default with paths := s.paths, chart := { s.chart with width, height } } =
        .ok { s with chart := { s.chart with width, height } } := by
    rw [setField, LogSettings.ofJson_reading]
    · rfl
    all_goals decide
  have hfields : Json.setFields ["paths", "chart", "log"] setField .default s.toJson.reading =
      .ok { s with chart := { s.chart with width, height } } := by
    have hobject := Json.setFields_object setField (by decide : ["paths", "chart", "log"].Nodup)
      [s.paths.toJson.reading, s.chart.toJson.reading, s.log.toJson.reading] rfl .default
    refine hobject.trans ?_
    rw [Json.setFields, Json.setItems_cons _ (by decide) hsetPaths,
      Json.setItems_cons _ (by decide) hsetChart, Json.setItems_cons _ (by decide) hsetLog]
    rfl
  rw [ofJson, Json.decode, Json.read_compact]
  dsimp only
  rw [hfields]
  rfl

theorem reading_inj {s s' : Settings} (hs : s.HasFiniteSizes) (hs' : s'.HasFiniteSizes)
    (h : s.toJson.reading = s'.toJson.reading) : s = s' := by
  obtain ⟨⟨input, output⟩, ⟨width, height, dpi, shown⟩, level, file⟩ := s
  obtain ⟨⟨input', output'⟩, ⟨width', height', dpi', shown'⟩, level', file'⟩ := s'
  simp only [toJson, Paths.toJson, ChartSettings.toJson, LogSettings.toJson, Value.reading,
    Json.memberReadings, Reading.object.injEq, Reading.text.injEq, Reading.number.injEq,
    Reading.boolean.injEq, Json.Numeral.mk.injEq, List.cons.injEq, Prod.mk.injEq, Option.some.injEq,
    true_and, and_true] at h
  obtain ⟨⟨rfl, rfl⟩, ⟨hwidth, hheight, hdpi, rfl⟩, rfl, rfl⟩ := h
  cases Json.numberReading_inj hs.1 hs'.1 hwidth
  cases Json.numberReading_inj hs.2 hs'.2 hheight
  have hvalue := congrArg (fun digits => Nat.ofDigitChars 10 digits 0) hdpi
  simp only [Nat.ofDigitChars_ten_toDigits] at hvalue
  cases UInt32.toNat_inj.mp hvalue
  rfl

/-- Acceptable settings have finite positive sizes: what has no finite product with the resolution
is no side of a canvas. -/
theorem sizes_of_validate {s : Settings} (h : s.validate = .ok ()) :
    s.HasFiniteSizes ∧ (0 : Binary64).lt s.chart.width = true ∧
      (0 : Binary64).lt s.chart.height = true := by
  obtain ⟨hwidth, hheight⟩ := (validate_eq_ok_iff s).mp h
  refine ⟨⟨?_, ?_⟩, hwidth.pos.1, hheight.pos.1⟩
  · obtain ⟨q, hq, _⟩ := hwidth
    obtain ⟨p, _, hp, _⟩ := Binary64.exists_factors hq
    exact hp.finite
  · obtain ⟨q, hq, _⟩ := hheight
    obtain ⟨p, _, hp, _⟩ := Binary64.exists_factors hq
    exact hp.finite

/-- The JSON text of settings with finite sizes is read back: all texts, the resolution and the flag
as they were, and the sizes with their signs and all of their first digits. The text tells such
settings apart, and all settings that are read have finite positive sizes. -/
theorem json_tells_settings :
    (∀ s : Settings, s.HasFiniteSizes →
      (∃ width height, ofJson s.toJson.compact =
          .ok { s with chart := { s.chart with width, height } } ∧
        Returned s.chart.width width ∧ Returned s.chart.height height) ∧
      ∀ s' : Settings, s'.HasFiniteSizes → s'.toJson.compact = s.toJson.compact → s' = s) ∧
    ∀ (path : String) (machine : Machine) (s : Settings),
      ((readSettings path : StateM Machine _) machine).1 = .ok s →
        s.HasFiniteSizes ∧ (0 : Binary64).lt s.chart.width = true ∧
          (0 : Binary64).lt s.chart.height = true := by
  constructor
  · intro s hs
    obtain ⟨width, hwidth, hwidth'⟩ := Json.exists_returned hs.1
    obtain ⟨height, hheight, hheight'⟩ := Json.exists_returned hs.2
    refine ⟨⟨width, height, ofJson_compact s hwidth hheight, hwidth', hheight'⟩, ?_⟩
    intro s' hs' htext
    have hread := Json.read_compact s'.toJson
    rw [htext, Json.read_compact] at hread
    exact (reading_inj hs hs' (congrArg Prod.fst hread)).symm
  · intro path machine s hread
    exact sizes_of_validate (validate_of_read hread)

theorem read_overridden :
    ((readSettings settingsPath : StateM Machine _) overridden).1 = .ok overriddenSettings := by
  rw [readSettings_eq_read]
  exact (read_eq_ok_iff isOrdinary_overridden).mpr
    ⟨effective_overridden, validate_overriddenSettings⟩

theorem overridden_comes_back :
    ((readSettings settingsPath : StateM Machine _) overridden).1 = .ok overriddenSettings ∧
      ofJson overriddenSettings.toJson.compact = .ok overriddenSettings ∧
      ∀ s' : Settings, s'.HasFiniteSizes →
        s'.toJson.compact = overriddenSettings.toJson.compact → s' = overriddenSettings := by
  obtain ⟨hsizes, _⟩ :=
    json_tells_settings.2 settingsPath overridden overriddenSettings read_overridden
  obtain ⟨⟨width, height, hread, hwidth, hheight⟩, htells⟩ :=
    json_tells_settings.1 overriddenSettings hsizes
  have hthree : overriddenSettings.chart.width =
      .finite false 6755399441055744 (-51) (by decide) := by decide +kernel
  have hfive : overriddenSettings.chart.height =
      .finite false 6192449487634432 (-50) (by decide) := by decide +kernel
  rw [hthree] at hwidth
  rw [hfive] at hheight
  have hwidth' := hwidth.eq_of_small (by decide +kernel) (by decide +kernel)
  have hheight' := hheight.eq_of_small (by decide +kernel) (by decide +kernel)
  rw [← hthree] at hwidth'
  rw [← hfive] at hheight'
  rw [hwidth', hheight'] at hread
  exact ⟨read_overridden, hread, htells⟩

/-- The number nearest to `1.4`, and the one after it. -/
def sevenFifths : Binary64 := .finite false 6305039478318694 (-52) (by decide)

def afterSevenFifths : Binary64 := .finite false 6305039478318695 (-52) (by decide)

/-- Settings that are acceptable and as narrow as the number after `1.4`. -/
def narrow : Settings :=
  { Settings.default with chart := { ChartSettings.default with width := afterSevenFifths } }

theorem toNumber_afterSevenFifths :
    (numberReading afterSevenFifths).toNumber = .ok sevenFifths := by
  have hsignificand : (Json.numeralOf false 6305039478318695 (-52)).significand =
      14000000000000001 := by decide +kernel
  have hpower : (Json.numeralOf false 6305039478318695 (-52)).power = -(16 : Nat) := by
    decide +kernel
  refine Json.toNumber_of_scale false (by decide) ?_
  rw [hsignificand, hpower, Json.scale_of_small (by decide), Json.scaleDown_of_le (by decide)]
  decide +kernel

/-- The seventeen digits of `1.4000000000000001` are too many for a number, so they are rounded
before they are divided, and the width comes back as `1.4`. -/
theorem narrow_comes_back_narrower :
    narrow.HasFiniteSizes ∧ narrow.validate = .ok () ∧
      ∃ t, ofJson narrow.toJson.compact = .ok t ∧ t.chart.width = sevenFifths ∧
        t.same narrow = false := by
  have hsizes : narrow.HasFiniteSizes := ⟨rfl, by decide⟩
  have hvalid : narrow.validate = .ok () := by decide +kernel
  have hless : sevenFifths.eq afterSevenFifths = false := by decide
  obtain ⟨height, hheight, _⟩ := Json.exists_returned hsizes.2
  refine ⟨hsizes, hvalid, _, ofJson_compact narrow toNumber_afterSevenFifths hheight, rfl, ?_⟩
  have hwidth : narrow.chart.width = afterSevenFifths := rfl
  simp [same, hwidth, hless]

end Settings

end RehashChart
