import RehashChart.Proofs.Run.Outcome
import RehashChart.Proofs.Run.Routes

/-! # Replacing pictures

A picture that is written takes the place of what was at its path, and one that cannot be written
leaves no trace. So of two pictures only the last one that is written counts.
-/

namespace RehashChart

open Files (Disk Failure Location)
open Files.Disk (AgreeOff)

/-! ## Twice at one place -/

theorem Logger.hide_hide (target : Location) (l : Logger) :
    (l.hide target).hide target = l.hide target := by
  obtain ⟨filter, file⟩ := l
  cases file with
  | none => rfl
  | some file => by_cases hplace : file.location = target <;> simp [hide, hplace]

namespace Machine

theorem withFile_withFile (machine : Machine) (target : Location) (first second : ByteArray) :
    (machine.withFile target first).withFile target second = machine.withFile target second := by
  have hlogger : Logger.hide target ∘ Logger.hide target = Logger.hide target :=
    funext (Logger.hide_hide target)
  simp [withFile, Disk.put_put, hlogger]

end Machine

open Machine

variable {path : String} {p : Png.Picture} {machine : Machine}

theorem Way.of_put {disk : Disk} {place beside target : Location} {bytes : ByteArray}
    (hne : place ≠ []) (h : disk.at? place ≠ some .directory)
    (hway : Way (disk.put place (.file bytes)) path beside target) :
    Way disk path beside target := by
  obtain ⟨i, hi, hfree⟩ := hway.free
  constructor
  · exact hway.room
  · exact hway.short
  · exact (Disk.walk_put_iff hne h bytes).mp hway.walk
  · exact (Disk.directory_put_iff hne h bytes beside).mp hway.directory
  · refine ⟨i, hi, ?_⟩
    rw [Disk.at?_put disk hne] at hfree
    split at hfree
    · cases hfree
    · exact hfree
  · exact (Disk.place?_put_iff hne h bytes).mp hway.place
  · exact fun hother =>
      hway.notDirectory ((Disk.directory_put_iff hne h bytes target).mpr hother)

theorem Accepts.of_put {disk : Disk} {place : Location} {bytes : ByteArray} (hne : place ≠ [])
    (h : disk.at? place ≠ some .directory) (haccepts : Accepts (disk.put place (.file bytes)) path) :
    Accepts disk path := by
  obtain ⟨beside, target, hway, hbeside, htarget⟩ := haccepts
  exact ⟨beside, target, hway.of_put hne h, hbeside, htarget⟩

/-! ## One picture -/

/-- How the writing of a picture to a path ends: the picture is in the only file that is another
one, or everything is as it was and the error has the path. -/
inductive Replacing (path : String) (p : Png.Picture) (before : Machine) :
    Except WriteError Unit × Machine → Prop where
  | replaced {target : Location} {bytes : ByteArray} :
      before.disk.place? path = some target →
      before.disk.at? target ≠ some .directory →
      (before.withFile target bytes).disk.read path = .ok bytes →
      Png.decode bytes = some p →
      AgreeOff (· = target) before.disk (before.withFile target bytes).disk →
      Replacing path p before (.ok (), before.withFile target bytes)
  | untouched {e : WriteError} :
      e.path = path → e.message = s!"Failed to write image to {path}" →
      Replacing path p before (.error e, before)

theorem replacing_writePicture (path : String) (p : Png.Picture) (machine : Machine) :
    Replacing path p machine ((writePicture path p : StateM Machine _) machine) := by
  rcases writePicture_apply path p machine with
    ⟨fault, hwrite⟩ | ⟨target, bytes, hwrite, hencode, hplace, htarget⟩
  · rw [hwrite]
    exact .untouched rfl rfl
  · rw [hwrite]
    obtain ⟨_, hread⟩ := read_written hplace htarget (.refl (machine.withFile target bytes))
    exact .replaced hplace htarget hread (decode_of_encodePicture hencode)
      (Disk.agreeOff_put machine.disk (Disk.place?_ne_nil hplace) _)

theorem exists_encodePicture_iff (p : Png.Picture) :
    (∃ bytes, encodePicture p = .ok bytes) ↔
      p.isWhole = true ∧ p.width ≠ 0 ∧ p.height ≠ 0 := by
  unfold encodePicture
  cases hwhole : p.isWhole with
  | false => simp
  | true =>
      by_cases hwidth : p.width = 0
      · simp [hwidth]
      · by_cases hheight : p.height = 0
        · simp [hwidth, hheight]
        · simp [hwidth, hheight]

/-! ## Two pictures -/

/-- Writing to a path twice: the second time either changes nothing, or ends as if there had been no
first time. -/
theorem writePicture_twice (path : String) (first second : Png.Picture) (machine : Machine) :
    (∃ e, (writePicture path second : StateM Machine _)
        ((writePicture path first : StateM Machine _) machine).2 =
      (.error e, ((writePicture path first : StateM Machine _) machine).2)) ∨
    (((writePicture path second : StateM Machine _)
        ((writePicture path first : StateM Machine _) machine).2).1 = .ok () ∧
      (writePicture path second : StateM Machine _)
        ((writePicture path first : StateM Machine _) machine).2 =
      (writePicture path second : StateM Machine _) machine) := by
  rcases writePicture_apply path first machine with
    ⟨fault, hfirst⟩ | ⟨target, bytes, hfirst, _, hplace, htarget⟩
  · rw [hfirst]
    rcases writePicture_apply path second machine with ⟨fault', hsecond⟩ | ⟨_, _, hsecond, _⟩
    · exact .inl ⟨_, hsecond⟩
    · exact .inr ⟨congrArg Prod.fst hsecond, rfl⟩
  · rw [hfirst]
    have hne := Disk.place?_ne_nil hplace
    rcases writePicture_apply path second (machine.withFile target bytes) with
      ⟨fault, hsecond⟩ | ⟨target', bytes', hsecond, hencode, hplace', _⟩
    · exact .inl ⟨_, hsecond⟩
    · have hok := congrArg Prod.fst hsecond
      obtain ⟨_, haccepts⟩ := (writePicture_eq_ok_iff path second _).mp hok
      -- What the second picture found in its way, it would have found without the first one.
      have halone := (writePicture_eq_ok_iff path second machine).mpr
        ⟨⟨bytes', hencode⟩, haccepts.of_put hne htarget⟩
      refine .inr ⟨hok, ?_⟩
      rcases writePicture_apply path second machine with
        ⟨fault, hfails⟩ | ⟨place, content, hwrites, hencode', hthere, _⟩
      · rw [hfails] at halone
        cases halone
      · have htargets : target' = target :=
          Option.some.inj (hplace'.symm.trans ((Disk.place?_put_iff hne htarget bytes).mpr hplace))
        cases Option.some.inj (hthere.symm.trans hplace)
        cases Except.ok.inj (hencode'.symm.trans hencode)
        rw [hsecond, hwrites, htargets, withFile_withFile]

/-- A first picture is not in the way of a second one, unless it has the name of a temporary
file. -/
theorem twice_eq_ok_iff {name : String} {directory : Location} (first second : Png.Picture)
    (hplace : machine.disk.place? path = some (name :: directory))
    (hname : ∀ i, temporaryName i ≠ name) :
    ((writePicture path second : StateM Machine _)
        ((writePicture path first : StateM Machine _) machine).2).1 = .ok () ↔
      ((writePicture path second : StateM Machine _) machine).1 = .ok () := by
  rcases writePicture_apply path first machine with
    ⟨fault, hfirst⟩ | ⟨target, bytes, hfirst, _, hthere, htarget⟩
  · rw [hfirst]
  · rw [hfirst]
    cases Option.some.inj (hthere.symm.trans hplace)
    have haccepts : Accepts (machine.withFile (name :: directory) bytes).disk path ↔
        Accepts machine.disk path :=
      accepts_congr (Disk.resembles_put hname htarget bytes) (sealedAlike_of_eq path rfl)
    rw [writePicture_eq_ok_iff, writePicture_eq_ok_iff, haccepts]

/-! ## Main result -/

/-- Writing a picture replaces what is at its path, or nothing. It succeeds just if the picture has
pixels and the path accepts one. Of two pictures written to one path, the second is left as if it
had been written alone, if it is written; otherwise the first one is left alone. Unless its place
has the name of a temporary file, the second picture is written just if it would be alone. -/
theorem picture_replaces (path : String) {chart : RenderedChart}
    (hwhole : chart.pixels.size = 3 * chart.width.toNat * chart.height.toNat)
    (machine : Machine) :
    Replacing path chart.toPicture machine
      ((writePicture path chart.toPicture : StateM Machine _) machine) ∧
    (((writePicture path chart.toPicture : StateM Machine _) machine).1 = .ok () ↔
      chart.width ≠ 0 ∧ chart.height ≠ 0 ∧ Accepts machine.disk path) ∧
    ∀ first : Png.Picture,
      let between := ((writePicture path first : StateM Machine _) machine).2
      let twice := (writePicture path chart.toPicture : StateM Machine _) between
      let once := (writePicture path chart.toPicture : StateM Machine _) machine
      (twice.1 = .ok () → twice = once) ∧
      (∀ e, twice.1 = .error e → twice.2 = between) ∧
      ∀ name directory, machine.disk.place? path = some (name :: directory) →
        (∀ i, temporaryName i ≠ name) → (twice.1 = .ok () ↔ once.1 = .ok ()) := by
  refine ⟨replacing_writePicture path chart.toPicture machine, ?_, ?_⟩
  · have hpicture : chart.toPicture.isWhole = true := decide_eq_true hwhole
    rw [writePicture_eq_ok_iff, exists_encodePicture_iff, and_assoc, and_assoc]
    exact ⟨fun h => h.2, fun h => ⟨hpicture, h⟩⟩
  · intro first between twice once
    refine ⟨?_, ?_, fun name directory hplace hname => twice_eq_ok_iff first _ hplace hname⟩
    · intro hok
      rcases writePicture_twice path first chart.toPicture machine with ⟨e, hfails⟩ | ⟨_, hsame⟩
      · rw [show twice = _ from hfails] at hok
        cases hok
      · exact hsame
    · intro e herror
      rcases writePicture_twice path first chart.toPicture machine with ⟨_, hfails⟩ | ⟨hok, _⟩
      · have hleft := congrArg Prod.snd hfails
        exact hleft
      · rw [show twice.1 = _ from hok] at herror
        cases herror

/-- A picture of one red pixel, and one without pixels. -/
def redDot : RenderedChart := ⟨1, 1, ⟨#[255, 0, 0]⟩, []⟩

def noPixels : RenderedChart := ⟨0, 0, .empty, []⟩

theorem place?_dot : tableMachine.disk.place? "dot.png" = some ["dot.png", "work"] :=
  Disk.place?_of_parts (Disk.checkPath_eq_ok_iff.mpr (by decide))
    (show Files.Path.parts "dot.png" = [] ++ ["dot.png"] by decide) (by decide) (by decide)
    (by decide) rfl rfl

theorem accepts_dot : Accepts tableMachine.disk "dot.png" := by
  have hfree : tableMachine.disk.at? ["dot.png", "work"] = none := rfl
  have hway : Way tableMachine.disk "dot.png" ["work"] ["dot.png", "work"] :=
    ⟨rfl, Disk.checkPath_eq_ok_iff.mpr (by decide), rfl, rfl, ⟨0, by decide, rfl⟩, place?_dot,
      by simp [hfree]⟩
  exact ⟨_, _, hway, List.not_mem_nil, List.not_mem_nil⟩

theorem redDot_replaces :
    redDot.pixels.size = 3 * redDot.width.toNat * redDot.height.toNat ∧
      ((writePicture "dot.png" redDot.toPicture : StateM Machine _) tableMachine).1 = .ok () ∧
      Replacing "dot.png" redDot.toPicture tableMachine
        ((writePicture "dot.png" redDot.toPicture : StateM Machine _) tableMachine) := by
  have hwhole : redDot.pixels.size = 3 * redDot.width.toNat * redDot.height.toNat := rfl
  have hreplaces := picture_replaces "dot.png" hwhole tableMachine
  exact ⟨hwhole, hreplaces.2.1.mpr ⟨by decide, by decide, accepts_dot⟩, hreplaces.1⟩

/-- A picture without pixels is never written. Whether one was written before it makes a difference
then. -/
theorem dot_left_by_noPixels :
    noPixels.pixels.size = 3 * noPixels.width.toNat * noPixels.height.toNat ∧
      redDot.pixels.size = 3 * redDot.width.toNat * redDot.height.toNat ∧
      (∃ bytes, ((writePicture "dot.png" noPixels.toPicture : StateM Machine _)
        ((writePicture "dot.png" redDot.toPicture : StateM Machine _) tableMachine).2).2.disk.at?
          ["dot.png", "work"] = some (.file bytes)) ∧
      ((writePicture "dot.png" noPixels.toPicture : StateM Machine _) tableMachine).2.disk.at?
        ["dot.png", "work"] = none := by
  have hfails (machine : Machine) :
      ((writePicture "dot.png" noPixels.toPicture : StateM Machine _) machine).2 = machine := by
    rcases writePicture_apply "dot.png" noPixels.toPicture machine with
      ⟨_, hwrite⟩ | ⟨_, bytes, _, hencode, _⟩
    · rw [hwrite]
    · exact absurd rfl ((exists_encodePicture_iff noPixels.toPicture).mp ⟨bytes, hencode⟩).2.1
  have hencodes : ∃ bytes, encodePicture redDot.toPicture = .ok bytes :=
    (exists_encodePicture_iff _).mpr ⟨rfl, by decide, by decide⟩
  have hwritten := (writePicture_eq_ok_iff "dot.png" redDot.toPicture tableMachine).mpr
    ⟨hencodes, accepts_dot⟩
  refine ⟨rfl, rfl, ?_, ?_⟩
  · rw [hfails]
    rcases writePicture_apply "dot.png" redDot.toPicture tableMachine with
      ⟨_, hwrite⟩ | ⟨target, bytes, hwrite, _, hplace, _⟩
    · rw [hwrite] at hwritten
      cases hwritten
    · rw [hwrite]
      cases Option.some.inj (hplace.symm.trans place?_dot)
      exact ⟨bytes, (Disk.at?_put tableMachine.disk (List.cons_ne_nil _ _) _).trans (if_pos rfl)⟩
  · rw [hfails]
    rfl

end RehashChart
