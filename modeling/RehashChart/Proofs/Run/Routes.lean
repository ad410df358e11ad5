import RehashChart.Proofs.Files.Parts
import RehashChart.Proofs.Run.Output

/-! # When a picture can be written

Whether a picture gets to a path does not depend on what is in the files of the disk, so telling
events does not change it, and neither does a file of a name that no temporary file has.
-/

namespace RehashChart

open Files (Disk Failure Location)
open Files.Disk (SameTree)
open Machine

namespace Files.Disk

variable {a b c disk : Disk}

theorem exists_freeLocation_iff (disk : Disk) (directory : Location) (name : Nat → String)
    (attempts i : Nat) :
    (∃ fresh, disk.freeLocation directory name attempts i = .ok fresh) ↔
      ∃ j < attempts, disk.at? (name (i + j) :: directory) = none := by
  induction attempts generalizing i with
  | zero => simp [freeLocation]
  | succ attempts ih =>
      rw [freeLocation]
      by_cases htaken : (disk.at? (name i :: directory)).isSome = true
      · rw [if_pos htaken, ih]
        constructor
        · intro h
          obtain ⟨j, hj, hfree⟩ := h
          exact ⟨j + 1, by omega, by rw [← hfree]; congr 3; omega⟩
        · intro h
          obtain ⟨j, hj, hfree⟩ := h
          cases j with
          | zero =>
              rw [Nat.add_zero] at hfree
              simp [hfree] at htaken
          | succ j => exact ⟨j, by omega, by rw [← hfree]; congr 3; omega⟩
      · rw [if_neg htaken]
        exact iff_of_true ⟨_, rfl⟩ ⟨0, by omega, by simpa using htaken⟩

theorem checkOpen_eq_ok_iff {directory : Location} :
    disk.checkOpen directory = .ok () ↔ directory ∉ disk.sealed := by
  unfold checkOpen
  split <;> rename_i h <;> simp [h]

theorem exists_createIn_iff (disk : Disk) (directory : String) (name : Nat → String) :
    (∃ made, disk.createIn directory name = .ok made) ↔
      checkPath (Path.join directory (name 0)) = .ok () ∧
        ∃ location, disk.walk (disk.start directory) (Path.parts directory) = .ok location ∧
          disk.at? location = some .directory ∧
            (∃ i < maxAttempts, disk.at? (name i :: location) = none) ∧
              location ∉ disk.sealed := by
  have hfree (location : Location) :=
    exists_freeLocation_iff disk location name maxAttempts 0
  simp only [Nat.zero_add] at hfree
  constructor
  · intro h
    obtain ⟨made, h⟩ := h
    unfold createIn at h
    obtain ⟨⟨⟩, hpath, h⟩ := bind_eq_ok.mp h
    obtain ⟨location, hwalk, h⟩ := bind_eq_ok.mp h
    obtain ⟨⟨⟩, hcheck, h⟩ := bind_eq_ok.mp h
    obtain ⟨fresh, hfresh, h⟩ := bind_eq_ok.mp h
    obtain ⟨⟨⟩, hopen, _⟩ := bind_eq_ok.mp h
    exact ⟨hpath, location, hwalk, checkDirectory_eq_ok_iff.mp hcheck,
      (hfree location).mp ⟨fresh, hfresh⟩, checkOpen_eq_ok_iff.mp hopen⟩
  · intro h
    obtain ⟨hpath, location, hwalk, hdirectory, hnames, hopen⟩ := h
    obtain ⟨fresh, hfresh⟩ := (hfree location).mpr hnames
    refine ⟨(fresh, disk.put fresh (.file .empty)), ?_⟩
    simp only [createIn, hpath, hwalk, checkDirectory_eq_ok_iff.mpr hdirectory, hfresh,
      checkOpen_eq_ok_iff.mpr hopen, bind, Except.bind]

theorem exists_rename_iff {source : Location} {entry : Entry}
    (hsource : disk.at? source = some entry) (path : String) :
    (∃ moved, disk.rename source path = .ok moved) ↔
      ∃ target, disk.place? path = some target ∧ disk.at? target ≠ some .directory ∧
        target.tail ∉ disk.sealed := by
  constructor
  · intro h
    obtain ⟨⟨target, moved⟩, h⟩ := h
    obtain ⟨hplace, htarget, _⟩ := rename_eq_ok h
    refine ⟨target, hplace, htarget, ?_⟩
    obtain ⟨directory, name, rfl, hslot⟩ := place?_eq_some_iff.mp hplace
    unfold rename at h
    split at h
    · simp [bind, Except.bind] at h
    · simp only [hslot, bind, Except.bind, Bool.false_eq_true, if_false] at h
      cases hopen : disk.checkOpen directory with
      | error failure => simp [hopen] at h
      | ok _ => exact checkOpen_eq_ok_iff.mp hopen
  · intro h
    obtain ⟨target, hplace, htarget, hopen⟩ := h
    obtain ⟨directory, name, rfl, hslot⟩ := place?_eq_some_iff.mp hplace
    have hnul : path.contains '\x00' = false := by
      have hpath := (slot_eq_ok hslot).1
      unfold checkPath at hpath
      split at hpath
      · cases hpath
      · rename_i hnot
        exact Bool.eq_false_iff.mpr hnot
    have hopen' : disk.checkOpen directory = .ok () := checkOpen_eq_ok_iff.mpr hopen
    refine ⟨(name :: directory, (disk.drop source).put (name :: directory) entry), ?_⟩
    simp only [rename, hnul, hslot, hopen', bind, Except.bind, Bool.false_eq_true, if_false]
    cases hat : disk.at? (name :: directory) with
    | none => rw [hsource]
    | some there =>
        cases there with
        | directory => exact absurd hat htarget
        | file bytes => rw [hsource]

/-! ## New files -/

variable {location : Location}

theorem directory_put_iff (hne : location ≠ []) (h : disk.at? location ≠ some .directory)
    (bytes : ByteArray) (other : Location) :
    (disk.put location (.file bytes)).at? other = some .directory ↔
      disk.at? other = some .directory :=
  ⟨fun hother => directoriesIn_of_put_file hne bytes other hother,
    fun hother => directoriesIn_put hne h _ other hother⟩

theorem walk_put_iff (hne : location ≠ []) (h : disk.at? location ≠ some .directory)
    (bytes : ByteArray) {start found : Location} {parts : List String} :
    (disk.put location (.file bytes)).walk start parts = .ok found ↔
      disk.walk start parts = .ok found :=
  ⟨walk_of_directoriesIn (directoriesIn_of_put_file hne bytes),
    walk_of_directoriesIn (directoriesIn_put hne h _)⟩

theorem place?_put_iff (hne : location ≠ []) (h : disk.at? location ≠ some .directory)
    (bytes : ByteArray) {path : String} {place : Location} :
    (disk.put location (.file bytes)).place? path = some place ↔ disk.place? path = some place :=
  ⟨place?_of_directoriesIn (directoriesIn_of_put_file hne bytes) rfl,
    place?_of_directoriesIn (directoriesIn_put hne h _) rfl⟩

/-- Two disks on which pictures take the same ways: they have the same directories, and temporary
files find names in the same ones. -/
structure SameRoutes (a b : Disk) : Prop where
  here : b.here = a.here
  room : b.isFull = a.isFull
  directories : ∀ l, b.at? l = some .directory ↔ a.at? l = some .directory
  names : ∀ l, (∃ i < maxAttempts, b.at? (temporaryName i :: l) = none) ↔
    ∃ i < maxAttempts, a.at? (temporaryName i :: l) = none

namespace SameRoutes

theorem symm (h : SameRoutes a b) : SameRoutes b a :=
  ⟨h.here.symm, h.room.symm, fun l => (h.directories l).symm, fun l => (h.names l).symm⟩

theorem start (h : SameRoutes a b) (path : String) : b.start path = a.start path := by
  simp only [Disk.start, h.here]

theorem walk (h : SameRoutes a b) {start found : Location} {parts : List String} :
    b.walk start parts = .ok found ↔ a.walk start parts = .ok found :=
  ⟨walk_of_directoriesIn fun l hl => (h.directories l).mp hl,
    walk_of_directoriesIn fun l hl => (h.directories l).mpr hl⟩

theorem place?_eq_some_iff (h : SameRoutes a b) {path : String} {place : Location} :
    b.place? path = some place ↔ a.place? path = some place :=
  ⟨place?_of_directoriesIn (fun l hl => (h.directories l).mp hl) h.here.symm,
    place?_of_directoriesIn (fun l hl => (h.directories l).mpr hl) h.here⟩

theorem place? (h : SameRoutes a b) (path : String) : b.place? path = a.place? path :=
  Option.ext fun _ => h.place?_eq_some_iff

end SameRoutes

/-- Two disks with the same directories on which the same names for temporary files are free. -/
structure Resembles (a b : Disk) : Prop where
  here : b.here = a.here
  room : b.isFull = a.isFull
  directories : ∀ l, b.at? l = some .directory ↔ a.at? l = some .directory
  names : ∀ i l, b.at? (temporaryName i :: l) = none ↔ a.at? (temporaryName i :: l) = none

theorem Resembles.routes (h : Resembles a b) : SameRoutes a b :=
  ⟨h.here, h.room, h.directories, fun l =>
    exists_congr fun i => and_congr_right fun _ => h.names i l⟩

theorem checkDirectory_eq_missing_iff {location : Location} :
    disk.checkDirectory location = .error .missing ↔ disk.at? location = none := by
  unfold checkDirectory
  split <;> rename_i hat <;> simp [hat]

theorem checkDirectory_congr {location : Location} (h : b.at? location = a.at? location) :
    b.checkDirectory location = a.checkDirectory location := by
  rw [checkDirectory, checkDirectory, h]

theorem SameTree.at?_eq_none_iff (h : SameTree a b) (location : Location) :
    b.at? location = none ↔ a.at? location = none := by
  rw [← checkDirectory_eq_missing_iff, ← checkDirectory_eq_missing_iff, h.check]

theorem SameTree.resembles (h : SameTree a b) : Resembles a b where
  here := h.here
  room := h.room
  directories l := by rw [← checkDirectory_eq_ok_iff, ← checkDirectory_eq_ok_iff, h.check]
  names i l := h.at?_eq_none_iff (temporaryName i :: l)

theorem resembles_put {name : String} (hname : ∀ i, temporaryName i ≠ name)
    (h : disk.at? (name :: location) ≠ some .directory) (bytes : ByteArray) :
    Resembles disk (disk.put (name :: location) (.file bytes)) where
  here := rfl
  room := rfl
  directories := directory_put_iff (List.cons_ne_nil _ _) h bytes
  names i l := by
    rw [at?_put disk (List.cons_ne_nil _ _), if_neg]
    intro heq
    exact hname i (List.cons.inj heq).1.symm

end Files.Disk

/-! ## Ways -/

def temporaryDirectory (disk : Disk) (path : String) : String :=
  Files.Path.join (pathOf disk.here) (Files.Path.directory path)

/-- A picture's way to a path: its temporary file is made in the directory `beside`, and moved to
`target`. Whether names in the two directories can be changed is left open. -/
structure Way (disk : Disk) (path : String) (beside target : Location) : Prop where
  room : disk.isFull = false
  short : Disk.checkPath
    (Files.Path.join (temporaryDirectory disk path) (temporaryName 0)) = .ok ()
  walk : disk.walk (disk.start (temporaryDirectory disk path))
    (Files.Path.parts (temporaryDirectory disk path)) = .ok beside
  directory : disk.at? beside = some .directory
  free : ∃ i < Disk.maxAttempts, disk.at? (temporaryName i :: beside) = none
  place : disk.place? path = some target
  notDirectory : disk.at? target ≠ some .directory

def Accepts (disk : Disk) (path : String) : Prop :=
  ∃ beside target, Way disk path beside target ∧ beside ∉ disk.sealed ∧
    target.tail ∉ disk.sealed

/-- Of the directories on a picture's way to a path, the same are sealed on both disks. -/
def SealedAlike (path : String) (a b : Disk) : Prop :=
  ∀ beside target, Way a path beside target →
    (beside ∈ b.sealed ↔ beside ∈ a.sealed) ∧ (target.tail ∈ b.sealed ↔ target.tail ∈ a.sealed)

variable {a b : Disk} {path : String}

theorem Way.of_sameRoutes {beside target : Location} (h : a.SameRoutes b)
    (hway : Way a path beside target) : Way b path beside target := by
  have hdirectory : temporaryDirectory b path = temporaryDirectory a path := by
    simp only [temporaryDirectory, h.here]
  constructor
  · rw [h.room, hway.room]
  · rw [hdirectory, hway.short]
  · rw [hdirectory, h.start, h.walk]
    exact hway.walk
  · exact (h.directories beside).mpr hway.directory
  · exact (h.names beside).mpr hway.free
  · exact h.place?_eq_some_iff.mpr hway.place
  · exact fun hother => hway.notDirectory ((h.directories target).mp hother)

theorem accepts_of_sameRoutes (h : a.SameRoutes b) (hsealed : SealedAlike path a b) :
    Accepts b path ↔ Accepts a path := by
  constructor
  · intro haccepts
    obtain ⟨beside, target, hway, hbeside, htarget⟩ := haccepts
    have hback := hway.of_sameRoutes h.symm
    obtain ⟨hsame, hsame'⟩ := hsealed beside target hback
    exact ⟨beside, target, hback, fun hin => hbeside (hsame.mpr hin),
      fun hin => htarget (hsame'.mpr hin)⟩
  · intro haccepts
    obtain ⟨beside, target, hway, hbeside, htarget⟩ := haccepts
    obtain ⟨hsame, hsame'⟩ := hsealed beside target hway
    exact ⟨beside, target, hway.of_sameRoutes h, fun hin => hbeside (hsame.mp hin),
      fun hin => htarget (hsame'.mp hin)⟩

theorem accepts_congr (h : a.Resembles b) (hsealed : SealedAlike path a b) :
    Accepts b path ↔ Accepts a path :=
  accepts_of_sameRoutes h.routes hsealed

theorem sealedAlike_of_eq (path : String) (h : b.sealed = a.sealed) : SealedAlike path a b := by
  intro beside target _
  rw [h]
  exact ⟨Iff.rfl, Iff.rfl⟩

/-! ## Pictures that are written -/

theorem place_eq_ok_iff {fresh : Location} {machine : Machine} (path : String) (p : Png.Picture)
    (hne : fresh ≠ []) (hfree : machine.disk.at? fresh = none) :
    ((place path p fresh : StateM Machine _)
        { machine with disk := machine.disk.put fresh (.file .empty) }).1 = .ok () ↔
      (∃ bytes, encodePicture p = .ok bytes) ∧ machine.disk.isFull = false ∧
        ∃ target, machine.disk.place? path = some target ∧
          machine.disk.at? target ≠ some .directory ∧ target.tail ∉ machine.disk.sealed := by
  have hnot : machine.disk.at? fresh ≠ some .directory := by simp [hfree]
  rw [place]
  cases hencode : encodePicture p with
  | error fault => simp [pure_apply]
  | ok bytes =>
      have hrename := Disk.exists_rename_iff
        ((Disk.at?_put machine.disk hne (.file bytes)).trans (if_pos rfl)) path
      simp only [Disk.place?_put_iff hne hnot, ne_eq, Disk.directory_put_iff hne hnot] at hrename
      dsimp only
      rw [bind_apply, fill_new]
      cases machine.disk.isFull with
      | true => simp [pure_apply]
      | false =>
          simp only [Bool.false_eq_true, if_false, bind_apply, pure_apply, Host.rename,
            Except.ok.injEq, exists_eq', true_and, ne_eq]
          refine Iff.trans ?_ hrename
          cases (machine.disk.put fresh (.file bytes)).rename fresh path with
          | error failure => simp
          | ok moved => simp

theorem writePicture_eq_ok_iff (path : String) (p : Png.Picture) (machine : Machine) :
    ((writePicture path p : StateM Machine _) machine).1 = .ok () ↔
      (∃ bytes, encodePicture p = .ok bytes) ∧ Accepts machine.disk path := by
  have habsolute : machine.absolute (Files.Path.directory path) =
      temporaryDirectory machine.disk path := rfl
  have hmake := Disk.exists_createIn_iff machine.disk (temporaryDirectory machine.disk path)
    temporaryName
  rw [writePicture, bind_apply]
  simp only [Host.createTemporary, habsolute]
  cases hcreate : machine.disk.createIn (temporaryDirectory machine.disk path) temporaryName with
  | error failure =>
      have hnone : ¬Accepts machine.disk path := by
        intro h
        obtain ⟨beside, target, hway, hbeside, _⟩ := h
        obtain ⟨made, hmade⟩ := hmake.mpr
          ⟨hway.short, beside, hway.walk, hway.directory, hway.free, hbeside⟩
        rw [hcreate] at hmade
        cases hmade
      simp [pure_apply, hnone]
  | ok made =>
      obtain ⟨fresh, created⟩ := made
      obtain ⟨hne, hfree, rfl⟩ := Disk.createIn_eq_ok hcreate
      obtain ⟨hshort, beside, hwalk, hdirectory, hnames, hbeside⟩ := hmake.mp ⟨_, hcreate⟩
      have hplace := place_eq_ok_iff path p hne hfree
      have haccepts : Accepts machine.disk path ↔ machine.disk.isFull = false ∧
          ∃ target, machine.disk.place? path = some target ∧
            machine.disk.at? target ≠ some .directory ∧ target.tail ∉ machine.disk.sealed := by
        constructor
        · intro h
          obtain ⟨_, target, hway, _, htarget⟩ := h
          exact ⟨hway.room, target, hway.place, hway.notDirectory, htarget⟩
        · intro h
          obtain ⟨hroom, target, hthere, hnot, htarget⟩ := h
          exact ⟨beside, target, ⟨hroom, hshort, hwalk, hdirectory, hnames, hthere, hnot⟩, hbeside,
            htarget⟩
      rw [haccepts, ← hplace]
      dsimp only
      rw [bind_apply]
      cases ((place path p fresh : StateM Machine _) _).1 with
      | ok _ => exact iff_of_true rfl rfl
      | error fault => simp [bind_apply, pure_apply]

end RehashChart
