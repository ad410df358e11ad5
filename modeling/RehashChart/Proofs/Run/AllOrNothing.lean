import RehashChart.Proofs.Run.Repeated

/-! # All or nothing

A run leaves the picture of the table at its output, or leaves the output alone. The only other
files that change are the preview and the log file.
-/

namespace RehashChart

open Files.Disk (AgreeOff)
open Machine

/-- Runs with given settings, and runs from the beginning. The first part covers every settings and
every machine, the second one says what the run has read, and the last two are for runs that do not
get as far as that. -/
theorem run_all_or_nothing {machine : Machine} (hviewer : machine.ViewerConfined) :
    (∀ s : Settings, Outcome s machine ((announced s machine).disk.read s.paths.input)
      ((run s : StateM Machine _) machine)) ∧
    (∀ s : Settings, (∀ location, machine.disk.walk (machine.disk.start s.paths.input)
        (Files.Path.parts s.paths.input) = .ok location → machine.openLog ≠ some location) →
      (announced s machine).disk.read s.paths.input = machine.disk.read s.paths.input) ∧
    (∀ e, ((start : StateM Machine _) machine).1 = .error (.settings e) →
      ((start : StateM Machine _) machine).2.disk = machine.disk) ∧
    ∀ file failure, ((start : StateM Machine _) machine).1 = .error (.log file failure) →
      ((start : StateM Machine _) machine).2.disk = machine.disk :=
  ⟨fun s => run_outcome s hviewer, fun s h => read_announced s h, (start_disk machine).1,
    (start_disk machine).2⟩

/-- The chart of the table is shown, the viewer empties the preview, and the picture is written. -/
theorem table_all_or_nothing :
    tableMachine.ViewerConfined ∧
      (∀ location, tableMachine.disk.walk (tableMachine.disk.start tableSettings.paths.input)
        (Files.Path.parts tableSettings.paths.input) = .ok location →
          tableMachine.openLog ≠ some location) ∧
      Outcome tableSettings tableMachine
        (.ok "insert size,rehash rounds\n100,2\n".toUTF8)
        ((run tableSettings : StateM Machine _) tableMachine) ∧
      ((run tableSettings : StateM Machine _) tableMachine).1 = .ok () ∧
      (∃ chart bytes, (BarChart.ofSamples [⟨100, 2⟩]).render 700 550 = .ok chart ∧
        ((run tableSettings : StateM Machine _) tableMachine).2.disk.read "dot.png" = .ok bytes ∧
        Png.decode bytes = some ⟨700, 550, chart.pixels⟩) ∧
      ((run tableSettings : StateM Machine _) tableMachine).2.disk.at? [previewName, "tmp"] =
        some (.file .empty) ∧
      AgreeOff (fun l => some ["run.log", "work"] = some l ∨ some [previewName, "tmp"] = some l ∨
          l = ["dot.png", "work"])
        tableMachine.disk ((run tableSettings : StateM Machine _) tableMachine).2.disk := by
  obtain ⟨hruns, hreads, _, _⟩ := run_all_or_nothing viewerConfined_tableMachine
  have hlog := logApart_tableMachine
  have houtcome := hruns tableSettings
  rw [hreads tableSettings hlog, read_tableMachine] at houtcome
  obtain ⟨hok, hpreview, hthere⟩ := run_tableMachine
  refine ⟨viewerConfined_tableMachine, hlog, houtcome, hok, ?_⟩
  generalize (run tableSettings : StateM Machine _) tableMachine = ended
    at houtcome hok hpreview hthere ⊢
  cases houtcome with
  | notLoaded => cases hok
  | notRendered => cases hok
  | notWritten => cases hok
  | @written samples chart bytes target after hload hrender hread hdecode hplace hsame =>
      have hsamples : samples = [⟨100, 2⟩] := (Except.ok.inj hload).symm
      have hsize : tableSettings.canvasSize = (700, 550) := by decide +kernel
      rw [hsamples, hsize] at hrender
      rw [hsize] at hdecode
      rw [← Option.some.inj (hplace.symm.trans hthere), ← preview_tableMachine]
      exact ⟨⟨chart, bytes, hrender, hread, hdecode⟩, hpreview, hsame⟩

end RehashChart
