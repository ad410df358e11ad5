import RehashChart.Proofs.Png.RoundTrip
import RehashChart.Proofs.Run.Stages

/-! # How a run ends

A run ends with the picture of the table at its output, or with the error of the first step that
fails: loading, rendering, writing.
-/

namespace RehashChart

open Files (Disk Failure Location)
open Files.Disk (AgreeOff SameTree)
open Machine

/-- How a run ends, given what it has read: with an error, and the log and the preview as the only
files that have changed, or with the picture's file at the place of the output. Where no log file
is open, the preview is the only file besides the output. -/
inductive Outcome (s : Settings) (before : Machine) (content : Except Failure ByteArray) :
    Except RunError Unit × Machine → Prop where
  | notLoaded {e : Benchmark.LoadError} {after : Machine} :
      loadContent s.paths.input content = .error e →
      AgreeOff (before.openLog = some ·) before.disk after.disk →
      Outcome s before content (.error (.load s.paths.input e), after)
  | notRendered {samples : List Sample} {after : Machine} :
      loadContent s.paths.input content = .ok samples →
      isCanvas s.canvasSize.1 s.canvasSize.2 = false →
      AgreeOff (before.openLog = some ·) before.disk after.disk →
      Outcome s before content
        (.error (.render ⟨s.canvasSize.1.toNat, s.canvasSize.2.toNat⟩), after)
  | notWritten {samples : List Sample} {fault : WriteFault} {after : Machine} :
      loadContent s.paths.input content = .ok samples →
      isCanvas s.canvasSize.1 s.canvasSize.2 = true →
      AgreeOff (fun l => before.openLog = some l ∨ before.preview = some l)
        before.disk after.disk →
      Outcome s before content (.error (.write ⟨s.paths.output, fault⟩), after)
  | written {samples : List Sample} {chart : RenderedChart} {bytes : ByteArray}
      {target : Location} {after : Machine} :
      loadContent s.paths.input content = .ok samples →
      (BarChart.ofSamples samples).render s.canvasSize.1 s.canvasSize.2 = .ok chart →
      after.disk.read s.paths.output = .ok bytes →
      Png.decode bytes = some ⟨s.canvasSize.1, s.canvasSize.2, chart.pixels⟩ →
      after.disk.place? s.paths.output = some target →
      AgreeOff (fun l => before.openLog = some l ∨ before.preview = some l ∨ l = target)
        before.disk after.disk →
      Outcome s before content (.ok (), after)

theorem decode_of_encodePicture {p : Png.Picture} {bytes : ByteArray}
    (h : encodePicture p = .ok bytes) : Png.decode bytes = some p := by
  unfold encodePicture at h
  split at h
  · simp at h
  · rename_i hwhole
    split at h
    · simp at h
    · rename_i hwidth
      split at h
      · simp at h
      · rename_i hheight
        cases h
        exact Png.decode_encode (by simpa using hwhole) hwidth hheight

theorem leaves_presented (s : Settings) (p : Png.Picture) {machine listed : Machine}
    (hviewer : machine.ViewerConfined) (htold : Told machine listed) :
    Leaves (machine.preview = some ·) machine (presented s p listed) := by
  have hconfined : listed.ViewerConfined := by
    rw [ViewerConfined, htold.viewer]
    exact hviewer
  have hshown := leaves_present s.chart.shown p hconfined
  rw [htold.preview] at hshown
  exact (htold.leaves _).trans hshown

theorem run_outcome (s : Settings) {machine : Machine} (hviewer : machine.ViewerConfined) :
    Outcome s machine ((announced s machine).disk.read s.paths.input)
      ((run s : StateM Machine _) machine) := by
  have hstages := run_stages s machine
  generalize (run s : StateM Machine _) machine = ended at hstages ⊢
  cases hstages with
  | notLoaded hload htold => exact .notLoaded hload htold.disk
  | notRendered hload hcanvas htold => exact .notRendered hload hcanvas htold.disk
  | @notWritten samples chart listed fault hload hrender htold _ =>
      have hleft := leaves_presented s chart.toPicture hviewer htold
      exact .notWritten hload (BarChart.render_eq_ok_iff.mp hrender).1 hleft.disk
  | @written samples chart bytes target listed after hload hrender hencode hlisted hplace htarget
      _ htold =>
      have hleft := leaves_presented s chart.toPicture hviewer hlisted
      have hfile := leaves_withFile (presented s chart.toPicture listed)
        (Disk.place?_ne_nil hplace) bytes
      obtain ⟨hthere, hread⟩ := read_written hplace htarget htold
      have hpicture := decode_of_encodePicture hencode
      obtain ⟨_, rfl⟩ := BarChart.render_eq_ok_iff.mp hrender
      refine .written hload hrender hread hpicture hthere ?_
      have hsame := (hleft.mono fun _ hl => Or.inl hl).trans
        ((hfile.mono fun _ hl => Or.inr hl).trans (htold.leaves _))
      exact hsame.disk

/-- The table is read as it was before, unless the lines of the log go into its file. -/
theorem read_announced (s : Settings) {machine : Machine} {path : String}
    (h : ∀ location, machine.disk.walk (machine.disk.start path) (Files.Path.parts path) =
      .ok location → machine.openLog ≠ some location) :
    (announced s machine).disk.read path = machine.disk.read path := by
  have htold := told_announced s machine
  exact htold.tree.read fun location hwalk => htold.disk.entries location (h location hwalk)

/-! ## From the beginning -/

theorem firstFile_machine (paths : List String) (machine : Machine) :
    ((firstFile paths : StateM Machine _) machine).2 = machine := by
  induction paths with
  | nil => rfl
  | cons path paths ih =>
      have hfile : (Host.readFile path : StateM Machine _) machine =
          (machine.disk.read path, machine) := rfl
      rw [firstFile, bind_apply, hfile]
      cases machine.disk.read path with
      | ok bytes => rfl
      | error failure => exact ih

theorem findSettings_machine (path : String) (machine : Machine) :
    ((findSettings path : StateM Machine _) machine).2 = machine := by
  have hhere : (Host.workingDirectory : StateM Machine String) machine =
      (pathOf machine.disk.here, machine) := rfl
  rw [findSettings, bind_apply, hhere]
  dsimp only
  rw [bind_apply]
  generalize hpaths : _ :: (Files.Path.withSuffix _ ".toml").toList = paths
  have hfirst := firstFile_machine paths machine
  cases ((firstFile paths : StateM Machine _) machine).1 with
  | none => exact hfirst
  | some found =>
      dsimp only
      cases Text.decode found.2 with
      | ok text => exact hfirst
      | error valid => exact hfirst

theorem readSettings_machine (path : String) (machine : Machine) :
    ((readSettings path : StateM Machine _) machine).2 = machine :=
  findSettings_machine path machine

theorem complain_disk (complaints : List String) (machine : Machine) :
    ((complaints.forM Host.complain : StateM Machine PUnit) machine).2.disk = machine.disk := by
  induction complaints generalizing machine with
  | nil => rfl
  | cons line complaints ih =>
      rw [List.forM, bind_apply, ih]
      rfl

theorem openLogFile_apply (file : String) (machine : Machine) :
    (∃ failure, (openLogFile file : StateM Machine _) machine = (.error failure, machine)) ∨
      ∃ log opened, (openLogFile file : StateM Machine _) machine = (.ok log, opened) := by
  unfold openLogFile
  split
  · exact .inr ⟨none, machine, rfl⟩
  · rw [bind_apply]
    simp only [Host.openLog, change]
    cases machine.disk.openForWriting file with
    | error failure => exact .inl ⟨failure, rfl⟩
    | ok result => exact .inr ⟨_, _, rfl⟩

theorem disk_of_setUpLog_error {s : LogSettings} {machine : Machine} {failure : Failure}
    (h : ((setUpLog s : StateM Machine _) machine).1 = .error failure) :
    ((setUpLog s : StateM Machine _) machine).2.disk = machine.disk := by
  unfold setUpLog at h ⊢
  dsimp only at h ⊢
  generalize Log.Filter.read (Text.lowercase s.level) = read at h ⊢
  obtain ⟨filter, complaints⟩ := read
  dsimp only at h ⊢
  have hdisk := complain_disk complaints machine
  rw [bind_apply] at h ⊢
  generalize ((complaints.forM Host.complain : StateM Machine PUnit) machine).2 = complained
    at h hdisk ⊢
  rw [bind_apply] at h ⊢
  rcases openLogFile_apply s.file complained with ⟨failure', hopen⟩ | ⟨log, opened, hopen⟩
  · rw [hopen]
    exact hdisk
  · rw [hopen] at h
    dsimp only at h
    rw [bind_apply] at h
    split at h
    · rw [bind_apply, pure_apply] at h
      cases h
    · rw [pure_apply] at h
      cases h

theorem mapError_run_ne (result : Except RunError Unit) :
    (∀ e, result.mapError StartError.run ≠ .error (.settings e)) ∧
      ∀ file failure, result.mapError StartError.run ≠ .error (.log file failure) := by
  constructor
  · intro e h
    cases result <;> cases h
  · intro file failure h
    cases result <;> cases h

/-- A run whose settings cannot be read, or whose log cannot be opened, changes no file. -/
theorem start_disk (machine : Machine) :
    (∀ e, ((start : StateM Machine _) machine).1 = .error (.settings e) →
        ((start : StateM Machine _) machine).2.disk = machine.disk) ∧
      ∀ file failure, ((start : StateM Machine _) machine).1 = .error (.log file failure) →
        ((start : StateM Machine _) machine).2.disk = machine.disk := by
  have hread := readSettings_machine settingsPath machine
  rw [start, bind_apply, hread]
  cases ((readSettings settingsPath : StateM Machine _) machine).1 with
  | error e => exact ⟨fun _ _ => rfl, fun _ _ _ => rfl⟩
  | ok settings =>
      dsimp only
      rw [bind_apply]
      cases hlog : ((setUpLog settings.log : StateM Machine _) machine).1 with
      | error failure =>
          dsimp only
          rw [pure_apply, disk_of_setUpLog_error hlog]
          exact ⟨fun _ _ => rfl, fun _ _ _ => rfl⟩
      | ok _ =>
          dsimp only
          rw [bind_apply, pure_apply]
          dsimp only
          exact ⟨fun e h => absurd h ((mapError_run_ne _).1 e),
            fun file failure h => absurd h ((mapError_run_ne _).2 file failure)⟩

/-! ## A machine -/

/-- A viewer that empties the file it is started on. -/
def emptyingViewer : Viewer := fun path disk =>
  match disk.place? path with
  | some place => (.exited 0, disk.put place (.file .empty))
  | none => (.exited 1, disk)

/-- A machine with a display, such a viewer, a table and a log file. -/
def tableMachine : Machine where
  disk := {
    entries := [(["work"], .directory), (["tmp"], .directory), (["figures"], .directory),
      (["sizes.csv", "work"], .file "insert size,rehash rounds\n100,2\n".toUTF8),
      (["run.log", "work"], .file .empty)]
    here := ["work"]
    sealed := []
    isFull := false }
  environment := [("DISPLAY", ":0")]
  viewer := some emptyingViewer
  logger := some ⟨(Log.Filter.read "debug").1, some ⟨["run.log", "work"], 0, true⟩⟩
  printed := []
  complaints := []
  stamp := "00h 00m 00s"
  elapsed := "1.00ms"

theorem viewerConfined_tableMachine : tableMachine.ViewerConfined := by
  intro viewer hviewer path disk
  cases Option.some.inj hviewer
  unfold emptyingViewer
  cases hplace : disk.place? path with
  | none => exact .refl _ disk
  | some place =>
      exact (Disk.agreeOff_put disk (Disk.place?_ne_nil hplace) _).mono
        fun _ hl => congrArg some hl.symm

end RehashChart
