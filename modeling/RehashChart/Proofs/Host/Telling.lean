import RehashChart.Host.Machine
import RehashChart.Proofs.Files.Disk

/-! # What telling changes

An event that is told changes the lines on the screen and, if a log file is open and to be seen,
that file.
-/

namespace RehashChart

open Files (Disk Location)
open Files.Disk (AgreeOff SameTree)

theorem bind_apply {σ α β : Type} (first : StateM σ α) (next : α → StateM σ β) (s : σ) :
    (first >>= next) s = next (first s).1 (first s).2 := rfl

theorem pure_apply {σ α : Type} (value : α) (s : σ) : (pure value : StateM σ α) s = (value, s) :=
  rfl

namespace Machine

def openLog (machine : Machine) : Option Location := do
  let logger ← machine.logger
  let file ← logger.file
  if file.isVisible then some file.location else none

/-- The second machine is the first one after some lines have been told. -/
structure Told (a b : Machine) : Prop where
  environment : b.environment = a.environment
  viewer : b.viewer = a.viewer
  openLog : b.openLog = a.openLog
  tree : SameTree a.disk b.disk
  disk : AgreeOff (a.openLog = some ·) a.disk b.disk

variable {a b c : Machine}

theorem Told.refl (a : Machine) : Told a a := ⟨rfl, rfl, rfl, .refl a.disk, .refl _ a.disk⟩

theorem Told.trans (h : Told a b) (k : Told b c) : Told a c where
  environment := k.environment.trans h.environment
  viewer := k.viewer.trans h.viewer
  openLog := k.openLog.trans h.openLog
  tree := h.tree.trans k.tree
  disk := h.disk.trans (k.disk.mono fun _ hl => h.openLog ▸ hl)

theorem told_print (a : Machine) (line : String) :
    Told a ((Host.print line : StateM Machine Unit) a).2 :=
  ⟨rfl, rfl, rfl, .refl a.disk, .refl _ a.disk⟩

theorem told_writeLog (a : Machine) (line : String) :
    Told a ((Host.writeLog line : StateM Machine Unit) a).2 := by
  obtain ⟨disk, environment, viewer, logger, printed, complaints, stamp, elapsed⟩ := a
  cases logger with
  | none => exact .refl _
  | some logger =>
      obtain ⟨filter, file⟩ := logger
      cases file with
      | none => exact .refl _
      | some file =>
          obtain ⟨location, offset, isVisible⟩ := file
          cases isVisible with
          | false => exact ⟨rfl, rfl, rfl, .refl disk, .refl _ disk⟩
          | true =>
              obtain ⟨htree, hdisk⟩ := disk.writeAt_frame location offset line.toUTF8
              exact ⟨rfl, rfl, rfl, htree, hdisk.mono fun _ hl => hl ▸ rfl⟩

theorem told_emit (a : Machine) (e : Log.Event) :
    Told a ((Host.emit e : StateM Machine Unit) a).2 := by
  have hfilter : (Host.filter : StateM Machine (Option Log.Filter)) a =
      (a.logger.map (·.filter), a) := rfl
  rw [Host.emit, bind_apply, hfilter]
  cases a.logger.map (·.filter) with
  | none => exact .refl a
  | some filter =>
      dsimp only
      split
      · exact (told_writeLog a (e.fileLine a.stamp)).trans (told_print _ (e.line a.stamp))
      · exact .refl a

end Machine

end RehashChart
