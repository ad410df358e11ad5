import RehashChart.Proofs.Chart.Raster
import RehashChart.Proofs.Run.Preview

/-! # The stages of a run

A run ends at the first step that fails; apart from showing and writing the chart it only tells
events.
-/

namespace RehashChart

open Files (Disk Failure Location)
open Machine

/-- The machine on which the table is read: the run has told that it starts, and its settings. -/
def announced (s : Settings) (machine : Machine) : Machine :=
  let started := ((tell .info "Starting rehashplot" : StateM Machine Unit) machine).2
  ((tell .debug s!"Settings: {s.toJson.pretty 0}" : StateM Machine Unit) started).2

theorem told_announced (s : Settings) (machine : Machine) : Told machine (announced s machine) :=
  (told_emit machine _).trans (told_emit _ _)

def loaded (s : Settings) (machine : Machine) : Except Benchmark.LoadError (List Sample) :=
  loadContent s.paths.input ((announced s machine).disk.read s.paths.input)

def presented (s : Settings) (p : Png.Picture) (machine : Machine) : Machine :=
  ((present s.chart.shown p : StateM Machine Unit) machine).2

/-- How a run with given settings goes on a machine. Up to where the chart is shown, and after it
has been written, the run only tells. -/
inductive Stages (s : Settings) (before : Machine) : Except RunError Unit × Machine → Prop where
  | notLoaded {e : Benchmark.LoadError} {after : Machine} :
      loaded s before = .error e → Told before after →
      Stages s before (.error (.load s.paths.input e), after)
  | notRendered {samples : List Sample} {after : Machine} :
      loaded s before = .ok samples → isCanvas s.canvasSize.1 s.canvasSize.2 = false →
      Told before after →
      Stages s before (.error (.render ⟨s.canvasSize.1.toNat, s.canvasSize.2.toNat⟩), after)
  | notWritten {samples : List Sample} {chart : RenderedChart} {listed : Machine}
      {fault : WriteFault} :
      loaded s before = .ok samples →
      (BarChart.ofSamples samples).render s.canvasSize.1 s.canvasSize.2 = .ok chart →
      Told before listed →
      (writePicture s.paths.output chart.toPicture : StateM Machine _)
        (presented s chart.toPicture listed) =
          (.error ⟨s.paths.output, fault⟩, presented s chart.toPicture listed) →
      Stages s before
        (.error (.write ⟨s.paths.output, fault⟩), presented s chart.toPicture listed)
  | written {samples : List Sample} {chart : RenderedChart} {bytes : ByteArray}
      {target : Location} {listed after : Machine} :
      loaded s before = .ok samples →
      (BarChart.ofSamples samples).render s.canvasSize.1 s.canvasSize.2 = .ok chart →
      encodePicture chart.toPicture = .ok bytes →
      Told before listed →
      (presented s chart.toPicture listed).disk.place? s.paths.output = some target →
      (presented s chart.toPicture listed).disk.at? target ≠ some .directory →
      (writePicture s.paths.output chart.toPicture : StateM Machine _)
        (presented s chart.toPicture listed) =
          (.ok (), (presented s chart.toPicture listed).withFile target bytes) →
      Told ((presented s chart.toPicture listed).withFile target bytes) after →
      Stages s before (.ok (), after)

/-- What holds of the rest of a run on every machine on which a line has been told holds of the run
that tells the line. -/
theorem of_tell {α : Type} {P : α × Machine → Prop} {level : Log.Level} {message : String}
    {next : Unit → StateM Machine α} {machine : Machine}
    (h : ∀ told, Told machine told → P (next () told)) :
    P ((tell level message >>= next) machine) :=
  h _ (told_emit machine ⟨level, .run, message⟩)

theorem run_stages (s : Settings) (machine : Machine) :
    Stages s machine ((run s : StateM Machine _) machine) := by
  have hbegun := told_announced s machine
  have hfile : (loadFile s.paths.input : StateM Machine _) (announced s machine) =
      (loaded s machine, announced s machine) := rfl
  unfold announced at hfile
  rw [run, bind_apply, bind_apply, bind_apply, hfile, ← announced]
  generalize announced s machine = begun at hbegun
  cases hload : loaded s machine with
  | error e => exact .notLoaded hload hbegun
  | ok samples =>
      refine of_tell fun counted hcounted => of_tell fun listed hlisted => ?_
      have htold := hbegun.trans (hcounted.trans hlisted)
      have hsize : s.canvasSize = (s.canvasSize.1, s.canvasSize.2) := rfl
      rw [hsize]
      dsimp only
      cases hcanvas : isCanvas s.canvasSize.1 s.canvasSize.2 with
      | false =>
          rw [BarChart.render, hcanvas]
          exact .notRendered hload hcanvas htold
      | true =>
          have hrender : (BarChart.ofSamples samples).render s.canvasSize.1 s.canvasSize.2 =
              .ok _ := BarChart.render_eq_ok_iff.mpr ⟨hcanvas, rfl⟩
          generalize RenderedChart.mk _ _ _ _ = chart at hrender
          rw [hrender]
          dsimp only
          rw [bind_apply, ← presented, bind_apply]
          rcases writePicture_apply s.paths.output chart.toPicture
              (presented s chart.toPicture listed) with
            ⟨fault, hwrite⟩ | ⟨target, bytes, hwrite, hencode, hplace, htarget⟩
          · rw [hwrite]
            exact .notWritten hload hrender htold hwrite
          · rw [hwrite]
            refine of_tell fun named hnamed => ?_
            rw [bind_apply]
            refine of_tell fun done hdone => ?_
            exact .written hload hrender hencode htold hplace htarget hwrite (hnamed.trans hdone)

theorem read_written {path : String} {target : Location} {bytes : ByteArray}
    {machine after : Machine} (hplace : machine.disk.place? path = some target)
    (htarget : machine.disk.at? target ≠ some .directory)
    (htold : Told (machine.withFile target bytes) after) :
    after.disk.place? path = some target ∧ after.disk.read path = .ok bytes := by
  have hne := Disk.place?_ne_nil hplace
  have hput : (machine.withFile target bytes).disk.place? path = some target :=
    Disk.place?_of_directoriesIn (Disk.directoriesIn_put hne htarget _) rfl hplace
  have hafter : after.disk.place? path = some target := (htold.tree.place? path).trans hput
  refine ⟨hafter, Disk.read_of_place? hafter ?_⟩
  rw [htold.disk.entries target fun hlog => (openLog_withFile hlog).2 rfl]
  exact (Disk.at?_put machine.disk hne _).trans (if_pos rfl)

theorem encode_render {chart : BarChart} {width height : UInt32} {rendered : RenderedChart}
    (h : chart.render width height = .ok rendered) :
    ∃ bytes, encodePicture rendered.toPicture = .ok bytes := by
  obtain ⟨hcanvas, hrendered⟩ := BarChart.render_eq_ok_iff.mp h
  have hwhole : rendered.toPicture.isWhole = true := by
    simp [hrendered, RenderedChart.toPicture, Png.Picture.isWhole, Raster.size_paint]
  have hwidth : rendered.toPicture.width = width := by rw [hrendered]; rfl
  have hheight : rendered.toPicture.height = height := by rw [hrendered]; rfl
  simp only [isCanvas, ne_eq, decide_not, Bool.and_eq_true, Bool.not_eq_true',
    decide_eq_false_iff_not] at hcanvas
  refine ⟨Png.encode rendered.toPicture, ?_⟩
  rw [encodePicture, hwhole, hwidth, hheight, if_neg hcanvas.1.1.1, if_neg hcanvas.1.1.2]
  rfl

end RehashChart
