import RehashChart.Proofs.Run.Preview
import RehashChart.Proofs.Run.Routes

/-! # What showing a picture spares

Whatever comes of showing a picture, another one can be written to a path afterwards exactly if it
could be before. What is at the path stays as well, unless the preview is written there.
-/

namespace RehashChart

open Files (Disk Failure Location)
open Files.Disk (AgreeOff SameTree)

namespace Files.Disk

variable {a b disk : Disk} {path : String}

def LeadsTo (disk : Disk) (path : String) (location : Location) : Prop :=
  disk.walk (disk.start path) (Path.parts path) = .ok location

def content? (disk : Disk) (path : String) : Option ByteArray := (disk.read path).toOption

theorem content?_eq_some_iff {bytes : ByteArray} :
    disk.content? path = some bytes ↔ checkPath path = .ok () ∧
      ∃ location, disk.LeadsTo path location ∧ disk.at? location = some (.file bytes) := by
  unfold content? Disk.read Disk.locate LeadsTo
  cases checkPath path with
  | error failure => simp [bind, Except.bind, Except.toOption]
  | ok _ =>
      cases disk.walk (disk.start path) (Path.parts path) with
      | error failure => simp [bind, Except.bind, Except.toOption]
      | ok location =>
          simp only [bind, Except.bind]
          cases hat : disk.at? location with
          | none => simp [Except.toOption, hat]
          | some entry => cases entry <;> simp [Except.toOption, hat]

theorem content?_congr (hleads : ∀ l, b.LeadsTo path l ↔ a.LeadsTo path l)
    (hsame : ∀ l, a.LeadsTo path l → b.at? l = a.at? l) : b.content? path = a.content? path := by
  ext bytes
  simp only [content?_eq_some_iff, hleads]
  constructor
  · intro h
    obtain ⟨hpath, l, hl, hfile⟩ := h
    exact ⟨hpath, l, hl, hsame l hl ▸ hfile⟩
  · intro h
    obtain ⟨hpath, l, hl, hfile⟩ := h
    exact ⟨hpath, l, hl, (hsame l hl).trans hfile⟩

theorem content?_of_read {bytes : ByteArray} (h : disk.read path = .ok bytes) :
    disk.content? path = some bytes := by
  rw [content?, h]
  rfl

theorem read_of_content? {bytes : ByteArray} (h : disk.content? path = some bytes) :
    disk.read path = .ok bytes := by
  unfold content? at h
  cases hread : disk.read path with
  | error failure =>
      rw [hread] at h
      cases h
  | ok found =>
      rw [hread] at h
      exact congrArg Except.ok (Option.some.inj h)

end Files.Disk

/-- From the first disk to the second one, a path has been spared: it leads to the same place, and a
picture can be written there as before. What is there may have been lost only if `lost` holds. -/
structure Spares (lost : Prop) (path : String) (a b : Disk) : Prop where
  accepts : Accepts b path ↔ Accepts a path
  leads : ∀ l, b.LeadsTo path l ↔ a.LeadsTo path l
  content : ¬lost → b.content? path = a.content? path

namespace Spares

variable {lost : Prop} {path : String} {a b c : Disk}

theorem refl (lost : Prop) (path : String) (a : Disk) : Spares lost path a a :=
  ⟨Iff.rfl, fun _ => Iff.rfl, fun _ => rfl⟩

theorem trans (h : Spares lost path a b) (k : Spares lost path b c) : Spares lost path a c where
  accepts := k.accepts.trans h.accepts
  leads l := (k.leads l).trans (h.leads l)
  content hkept := (k.content hkept).trans (h.content hkept)

theorem mono {lost' : Prop} (h : Spares lost path a b) (himp : lost → lost') :
    Spares lost' path a b :=
  ⟨h.accepts, h.leads, fun hkept => h.content fun hlost => hkept (himp hlost)⟩

end Spares

theorem temporaryName_ne_previewName (i : Nat) : Machine.temporaryName i ≠ previewName := by
  intro h
  have hlist := congrArg String.toList h
  simp [Machine.temporaryName, previewName] at hlist

namespace Machine

variable {lost : Prop} {path : String} {a b c machine : Machine}

def LogApart (machine : Machine) (path : String) : Prop :=
  ∀ l, machine.disk.LeadsTo path l → machine.openLog ≠ some l

/-- The viewer leaves a path alone: what is there, where it leads, and whether a picture can be
written there. -/
def ViewerSpares (machine : Machine) (path : String) : Prop :=
  ∀ viewer, machine.viewer = some viewer → ∀ shown disk,
    RehashChart.Spares False path disk (viewer shown disk).2

/-- From the first machine to the second one, a path has been spared and no log file been opened. -/
structure Spares (lost : Prop) (path : String) (a b : Machine) : Prop where
  openLog : ∀ l, b.openLog = some l → a.openLog = some l
  disk : RehashChart.Spares lost path a.disk b.disk

theorem Spares.refl (lost : Prop) (path : String) (a : Machine) : Spares lost path a a :=
  ⟨fun _ h => h, .refl lost path a.disk⟩

theorem Spares.trans (h : Spares lost path a b) (k : Spares lost path b c) :
    Spares lost path a c :=
  ⟨fun l hl => h.openLog l (k.openLog l hl), h.disk.trans k.disk⟩

theorem Spares.logApart (h : Spares lost path a b) (hlog : a.LogApart path) :
    b.LogApart path :=
  fun l hl hopen => hlog l ((h.disk.leads l).mp hl) (h.openLog l hopen)

/-- Telling spares every path; the log file is the only one that changes. -/
theorem Told.spares (h : Told a b) (hlog : ¬lost → a.LogApart path) : Spares lost path a b where
  openLog l hl := h.openLog ▸ hl
  disk := by
    have hleads (l : Location) : b.disk.LeadsTo path l ↔ a.disk.LeadsTo path l := by
      have hstart : b.disk.start path = a.disk.start path := by
        simp only [Disk.start, h.tree.here]
      rw [Disk.LeadsTo, hstart, h.tree.walk, Disk.LeadsTo]
    refine ⟨?_, hleads, fun hkept => ?_⟩
    · exact accepts_congr h.tree.resembles (sealedAlike_of_eq path h.disk.closed)
    · exact Disk.content?_congr hleads fun l hl => h.disk.entries l (hlog hkept l hl)

theorem spares_withFile {target : Location} {bytes : ByteArray}
    (hplace : machine.preview = some target) (htarget : machine.disk.at? target ≠ some .directory)
    (hlost : machine.disk.LeadsTo path target → lost) :
    Spares lost path machine (machine.withFile target bytes) where
  openLog l hl := (openLog_withFile hl).1
  disk := by
    have hne := Disk.place?_ne_nil hplace
    have hleads (l : Location) : (machine.withFile target bytes).disk.LeadsTo path l ↔
        machine.disk.LeadsTo path l := Disk.walk_put_iff hne htarget bytes
    refine ⟨?_, hleads, fun hkept => ?_⟩
    · obtain ⟨location, rfl⟩ := Disk.place?_join (by decide) hplace
      exact accepts_congr (Disk.resembles_put temporaryName_ne_previewName htarget bytes)
        (sealedAlike_of_eq path rfl)
    · refine Disk.content?_congr hleads fun l hl => ?_
      refine (Disk.at?_put machine.disk hne _).trans (if_neg ?_)
      intro heq
      exact hkept (hlost (heq ▸ hl))

/-- Showing a picture writes it to where a path leads: the preview can be written there. -/
def Overwrites (shown : Bool) (machine : Machine) (path : String) : Prop :=
  shown = true ∧ hasDisplay machine.environment = true ∧
    Accepts machine.disk (previewPath machine.environment) ∧
      ∃ l, machine.preview = some l ∧ machine.disk.LeadsTo path l

theorem spares_view {shown : String} (hviewer : machine.ViewerSpares path) :
    Spares lost path machine ((Host.view shown : StateM Machine _) machine).2 := by
  simp only [Host.view]
  cases hv : machine.viewer with
  | none => exact .refl lost path machine
  | some viewer =>
      exact ⟨fun _ hl => hl, (hviewer viewer hv shown machine.disk).mono False.elim⟩

theorem spares_showPicture (p : Png.Picture) (hviewer : machine.ViewerSpares path)
    (hlog : ¬lost → machine.LogApart path) (hlost : Overwrites true machine path → lost) :
    Spares lost path machine ((showPicture p : StateM Machine _) machine).2 := by
  have hshows := shows_showPicture p machine
  generalize (showPicture p : StateM Machine _) machine = shown at hshows ⊢
  cases hshows with
  | hidden _ htold => exact htold.spares hlog
  | failed _ _ => exact .refl lost path machine
  | @viewed target bytes _ hdisplay hwrite _ hplace htarget =>
      have hwritten := writePicture_eq_ok_iff (previewPath machine.environment) p machine
      rw [hwrite] at hwritten
      have hfile : Spares lost path machine (machine.withFile target bytes) :=
        spares_withFile hplace htarget fun hleads =>
          hlost ⟨rfl, hdisplay, (hwritten.mp rfl).2, target, hplace, hleads⟩
      exact hfile.trans (spares_view hviewer)

/-- Whether a picture is shown or not, what is at a path can be lost only by the preview being
written there, or by the log. -/
theorem spares_present (shown : Bool) (p : Png.Picture) (hviewer : machine.ViewerSpares path) :
    Spares (Overwrites shown machine path ∨ ¬machine.LogApart path) path machine
      ((present shown p : StateM Machine _) machine).2 := by
  have hlog : ¬(Overwrites shown machine path ∨ ¬machine.LogApart path) →
      machine.LogApart path := by
    intro hkept
    exact Classical.byContradiction fun hnot => hkept (.inr hnot)
  cases shown with
  | false => exact (told_present_false p machine).spares hlog
  | true =>
      have hshown := spares_showPicture p hviewer hlog Or.inl
      refine hshown.trans ((told_present_true p machine).spares fun hkept => ?_)
      exact hshown.logApart (hlog hkept)

end Machine

end RehashChart
