import RehashChart.Proofs.Run.Output
import RehashChart.Run.Pipeline

/-! # What showing a picture leaves alone

A chart that is shown costs one file, the preview, whatever comes of it. This holds for viewers that
change no file but the one they are started on.
-/

namespace RehashChart

open Files (Disk Location)
open Files.Disk (AgreeOff SameTree)

namespace Machine

def preview (machine : Machine) : Option Location :=
  machine.disk.place? (previewPath machine.environment)

/-- How showing a picture goes: there is no display, or the preview cannot be written, or the viewer
is started on it and ends in some way. -/
inductive Shows (p : Png.Picture) (machine : Machine) :
    Except ViewerError Bool × Machine → Prop where
  | hidden {after : Machine} :
      hasDisplay machine.environment = false → Told machine after →
      Shows p machine (.ok false, after)
  | failed {fault : WriteFault} :
      hasDisplay machine.environment = true →
      (writePicture (previewPath machine.environment) p : StateM Machine _) machine =
        (.error ⟨previewPath machine.environment, fault⟩, machine) →
      Shows p machine (.error (.write ⟨previewPath machine.environment, fault⟩), machine)
  | viewed {target : Location} {bytes : ByteArray} {result : Except ViewerError Bool} :
      hasDisplay machine.environment = true →
      (writePicture (previewPath machine.environment) p : StateM Machine _) machine =
        (.ok (), machine.withFile target bytes) →
      encodePicture p = .ok bytes → machine.preview = some target →
      machine.disk.at? target ≠ some .directory →
      Shows p machine (result, ((Host.view (previewPath machine.environment) : StateM Machine _)
        (machine.withFile target bytes)).2)

theorem shows_showPicture (p : Png.Picture) (machine : Machine) :
    Shows p machine ((showPicture p : StateM Machine _) machine) := by
  have henvironment : (Host.environment : StateM Machine Environment) machine =
      (machine.environment, machine) := rfl
  rw [showPicture, bind_apply, henvironment]
  dsimp only
  cases hdisplay : hasDisplay machine.environment with
  | false => exact .hidden hdisplay (told_emit machine _)
  | true =>
      simp only [Bool.not_true, Bool.false_eq_true, if_false]
      rw [bind_apply]
      rcases writePicture_apply (previewPath machine.environment) p machine with
        ⟨fault, hwrite⟩ | ⟨target, bytes, hwrite, hencode, hplace, htarget⟩
      · rw [hwrite]
        exact .failed hdisplay hwrite
      · rw [hwrite]
        dsimp only
        rw [bind_apply]
        cases ((Host.view _ : StateM Machine _) (machine.withFile target bytes)).1 with
        | error failure => exact .viewed hdisplay hwrite hencode hplace htarget
        | ok status =>
            dsimp only
            split <;> exact .viewed hdisplay hwrite hencode hplace htarget

theorem told_present_false (p : Png.Picture) (machine : Machine) :
    Told machine ((present false p : StateM Machine Unit) machine).2 :=
  told_emit machine _

theorem told_present_true (p : Png.Picture) (machine : Machine) :
    Told ((showPicture p : StateM Machine _) machine).2
      ((present true p : StateM Machine Unit) machine).2 := by
  simp only [present, if_true]
  rw [bind_apply]
  cases ((showPicture p : StateM Machine _) machine).1 with
  | ok _ => exact .refl _
  | error e => exact told_emit _ _

/-- The viewer changes the file that it is started on at most. -/
def ViewerConfined (machine : Machine) : Prop :=
  ∀ viewer, machine.viewer = some viewer → ∀ path disk,
    AgreeOff (fun l => disk.place? path = some l) disk (viewer path disk).2

/-- From the first machine to the second one nothing has changed but some places and the log file,
which may have been hidden. -/
structure Leaves (places : Location → Prop) (a b : Machine) : Prop where
  openLog : ∀ location, b.openLog = some location → a.openLog = some location
  disk : AgreeOff (fun l => a.openLog = some l ∨ places l) a.disk b.disk

variable {a b c machine : Machine} {p q : Location → Prop}

theorem Leaves.refl (p : Location → Prop) (a : Machine) : Leaves p a a :=
  ⟨fun _ h => h, .refl _ a.disk⟩

theorem Leaves.trans (h : Leaves p a b) (k : Leaves p b c) : Leaves p a c where
  openLog location hl := h.openLog location (k.openLog location hl)
  disk := h.disk.trans (k.disk.mono fun l hl => hl.imp_left (h.openLog l))

theorem Leaves.mono (h : Leaves p a b) (hpq : ∀ l, p l → q l) : Leaves q a b :=
  ⟨h.openLog, h.disk.mono fun l hl => hl.imp_right (hpq l)⟩

theorem Told.leaves (h : Told a b) (p : Location → Prop) : Leaves p a b :=
  ⟨fun _ hl => h.openLog ▸ hl, h.disk.mono fun _ hl => .inl hl⟩

theorem Told.preview (h : Told a b) : b.preview = a.preview := by
  rw [Machine.preview, h.environment, h.tree.place?, Machine.preview]

theorem leaves_withFile (machine : Machine) {target : Location} (hne : target ≠ [])
    (bytes : ByteArray) : Leaves (· = target) machine (machine.withFile target bytes) :=
  ⟨fun _ hl => (openLog_withFile hl).1,
    (Disk.agreeOff_put machine.disk hne (.file bytes)).mono fun _ hl => .inr hl⟩

theorem leaves_view {path : String} {target : Location} {bytes : ByteArray}
    (hviewer : machine.ViewerConfined) (hplace : machine.disk.place? path = some target)
    (htarget : machine.disk.at? target ≠ some .directory) :
    Leaves (· = target) (machine.withFile target bytes)
      ((Host.view path : StateM Machine _) (machine.withFile target bytes)).2 := by
  have hdefault : (machine.withFile target bytes).viewer = machine.viewer := rfl
  simp only [Host.view, hdefault]
  cases hv : machine.viewer with
  | none => exact .refl _ _
  | some viewer =>
      have hsame := Disk.directoriesIn_put (Disk.place?_ne_nil hplace) htarget (.file bytes)
      have hthere : (machine.withFile target bytes).disk.place? path = some target :=
        Disk.place?_of_directoriesIn hsame rfl hplace
      refine ⟨fun _ hl => hl, (hviewer viewer hv path _).mono fun l hl => .inr ?_⟩
      exact (Option.some.inj (hthere.symm.trans hl)).symm

theorem leaves_showPicture (p : Png.Picture) (hviewer : machine.ViewerConfined) :
    Leaves (machine.preview = some ·) machine ((showPicture p : StateM Machine _) machine).2 := by
  have hshows := shows_showPicture p machine
  generalize (showPicture p : StateM Machine _) machine = shown at hshows ⊢
  cases hshows with
  | hidden _ htold => exact htold.leaves _
  | failed _ _ => exact .refl _ machine
  | @viewed target bytes _ _ _ _ hplace htarget =>
      have hfile := leaves_withFile machine (Disk.place?_ne_nil hplace) bytes
      exact (hfile.trans (leaves_view hviewer hplace htarget)).mono fun l hl => hl ▸ hplace

theorem leaves_present (shown : Bool) (p : Png.Picture) (hviewer : machine.ViewerConfined) :
    Leaves (machine.preview = some ·) machine ((present shown p : StateM Machine _) machine).2 := by
  cases shown with
  | false => exact (told_present_false p machine).leaves _
  | true => exact (leaves_showPicture p hviewer).trans ((told_present_true p machine).leaves _)

end Machine

end RehashChart
