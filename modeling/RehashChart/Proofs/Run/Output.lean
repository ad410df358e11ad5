import RehashChart.Proofs.Host.Telling
import RehashChart.Run.Output

/-! # Writing a picture on a machine

The temporary file is gone before the end, and the only other change is the picture's file.
-/

namespace RehashChart

open Files (Disk Failure Location)
open Files.Disk (AgreeOff SameTree)

namespace Machine

def withFile (machine : Machine) (target : Location) (bytes : ByteArray) : Machine :=
  { machine with
    disk := machine.disk.put target (.file bytes)
    logger := machine.logger.map (Logger.hide target) }

variable {machine : Machine} {target : Location} {bytes : ByteArray}

/-- A log file is not seen any more once another file is at its place. -/
theorem openLog_withFile {location : Location}
    (h : (machine.withFile target bytes).openLog = some location) :
    machine.openLog = some location ∧ location ≠ target := by
  cases hlogger : machine.logger with
  | none => simp [openLog, withFile, hlogger] at h
  | some logger =>
      cases hfile : logger.file with
      | none => simp [openLog, withFile, hlogger, Logger.hide, hfile] at h
      | some file =>
          by_cases hplace : file.location = target
          · simp [openLog, withFile, hlogger, Logger.hide, hfile, hplace] at h
          · simp only [openLog, withFile, hlogger, Logger.hide, hfile, hplace, Option.map_some,
              if_false, Option.bind_eq_bind, Option.bind_some] at h ⊢
            refine ⟨h, ?_⟩
            rintro rfl
            split at h
            · exact hplace (Option.some.inj h)
            · simp at h

end Machine

open Machine

theorem rename_new {disk : Disk} {fresh target : Location} {bytes : ByteArray} {path : String}
    {moved : Disk} (hne : fresh ≠ []) (hfree : disk.at? fresh = none)
    (h : (disk.put fresh (.file bytes)).rename fresh path = .ok (target, moved)) :
    moved = disk.put target (.file bytes) ∧ disk.place? path = some target ∧
      disk.at? target ≠ some .directory := by
  obtain ⟨hplace, htarget, entry, hentry, rfl⟩ := Disk.rename_eq_ok h
  rw [Disk.at?_put disk hne, if_pos rfl, Option.some.injEq] at hentry
  refine ⟨?_,
    Disk.place?_of_directoriesIn (Disk.directoriesIn_of_put_file hne bytes) rfl hplace, ?_⟩
  · rw [Disk.drop_put_of_free hne hfree, hentry]
  · intro hdirectory
    apply htarget
    rw [Disk.at?_put disk hne, if_neg, hdirectory]
    rintro rfl
    simp [hfree] at hdirectory

theorem fill_new (fresh : Location) (bytes : ByteArray) (machine : Machine) :
    (Host.fill fresh bytes : StateM Machine _)
        { machine with disk := machine.disk.put fresh (.file .empty) } =
      if machine.disk.isFull then
        (.error .full, { machine with disk := machine.disk.put fresh (.file .empty) })
      else (.ok (), { machine with disk := machine.disk.put fresh (.file bytes) }) := by
  have hdisk : (machine.disk.put fresh (.file .empty)).fill fresh bytes =
      if machine.disk.isFull then .error .full
      else .ok (machine.disk.put fresh (.file bytes)) := by
    rw [Disk.fill, Disk.put_put]
    rfl
  simp only [Host.fill, change, hdisk]
  cases machine.disk.isFull <;> rfl

/-- A temporary file that is new either stays one, with whatever is in it, or becomes the picture's
file at the place of the path. -/
theorem place_apply {fresh : Location} {machine : Machine} (path : String) (p : Png.Picture)
    (hne : fresh ≠ []) (hfree : machine.disk.at? fresh = none) :
    (∃ fault bytes, (place path p fresh : StateM Machine _)
        { machine with disk := machine.disk.put fresh (.file .empty) } =
          (.error fault, { machine with disk := machine.disk.put fresh (.file bytes) })) ∨
      ∃ target bytes, (place path p fresh : StateM Machine _)
          { machine with disk := machine.disk.put fresh (.file .empty) } =
            (.ok (), machine.withFile target bytes) ∧
        encodePicture p = .ok bytes ∧ machine.disk.place? path = some target ∧
          machine.disk.at? target ≠ some .directory := by
  cases hencode : encodePicture p with
  | error fault => exact .inl ⟨fault, .empty, by rw [place, hencode]; rfl⟩
  | ok bytes =>
      rw [place, hencode]
      dsimp only
      rw [bind_apply, fill_new]
      cases machine.disk.isFull with
      | true => exact .inl ⟨_, .empty, rfl⟩
      | false =>
          simp only [Bool.false_eq_true, if_false, bind_apply]
          simp only [Host.rename]
          cases hrename : (machine.disk.put fresh (.file bytes)).rename fresh path with
          | error failure => exact .inl ⟨_, bytes, rfl⟩
          | ok result =>
              obtain ⟨target, moved⟩ := result
              obtain ⟨rfl, hplace, htarget⟩ := rename_new hne hfree hrename
              exact .inr ⟨target, bytes, rfl, rfl, hplace, htarget⟩

theorem writePicture_apply (path : String) (p : Png.Picture) (machine : Machine) :
    (∃ fault, (writePicture path p : StateM Machine _) machine =
        (.error ⟨path, fault⟩, machine)) ∨
      ∃ target bytes, (writePicture path p : StateM Machine _) machine =
          (.ok (), machine.withFile target bytes) ∧
        encodePicture p = .ok bytes ∧ machine.disk.place? path = some target ∧
          machine.disk.at? target ≠ some .directory := by
  rw [writePicture, bind_apply]
  simp only [Host.createTemporary]
  cases hcreate : machine.disk.createIn (machine.absolute (Files.Path.directory path))
      temporaryName with
  | error failure => exact .inl ⟨_, rfl⟩
  | ok result =>
      obtain ⟨fresh, created⟩ := result
      obtain ⟨hne, hfree, rfl⟩ := Disk.createIn_eq_ok hcreate
      dsimp only
      rw [bind_apply]
      rcases place_apply path p hne hfree with ⟨fault, bytes, hplace⟩ | ⟨target, bytes, hplace, h⟩
      · rw [hplace]
        have hdiscard : (Host.discard fresh : StateM Machine Unit)
            { machine with disk := machine.disk.put fresh (.file bytes) } = ((), machine) := by
          simp only [Host.discard, Disk.discard, Disk.drop_put_of_free hne hfree]
        refine .inl ⟨fault, ?_⟩
        dsimp only
        rw [bind_apply, hdiscard]
        rfl
      · rw [hplace]
        exact .inr ⟨target, bytes, rfl, h⟩

end RehashChart
