import RehashChart.Files.Disk
import RehashChart.Proofs.Results

/-! # What file operations leave alone

Two disks agree off some places if all else on them is the same. Where a path leads to depends on
directories only, so neither a new file nor new content in one changes it.
-/

namespace RehashChart

namespace Keyed

variable {κ α : Type} [DecidableEq κ]

theorem put_of_get?_none {key : κ} {entries : List (κ × α)} (h : get? key entries = none)
    (value : α) : put key value entries = entries ++ [(key, value)] := by
  induction entries with
  | nil => rfl
  | cons e rest ih =>
      by_cases hk : e.1 = key
      · simp [get?, hk] at h
      · simp only [get?, hk, if_false] at h
        simp [put, hk, ih h]

theorem put_put (key : κ) (first second : α) (entries : List (κ × α)) :
    put key second (put key first entries) = put key second entries := by
  induction entries with
  | nil => simp [put]
  | cons e rest ih => by_cases hk : e.1 = key <;> simp [put, hk, ih]

theorem drop_of_get?_none {key : κ} {entries : List (κ × α)} (h : get? key entries = none) :
    drop key entries = entries := by
  induction entries with
  | nil => rfl
  | cons e rest ih =>
      by_cases hk : e.1 = key
      · simp [get?, hk] at h
      · simp only [get?, hk, if_false] at h
        rw [drop, List.filter_cons_of_pos (by simpa using hk)]
        exact congrArg (e :: ·) (ih h)

theorem drop_put {key : κ} {entries : List (κ × α)} (h : get? key entries = none) (value : α) :
    drop key (put key value entries) = entries := by
  have hdrop := drop_of_get?_none h
  unfold drop at hdrop
  rw [put_of_get?_none h, drop, List.filter_append, hdrop]
  simp

end Keyed

namespace Files

namespace Disk

variable {a b c disk : Disk}

/-! ## Entries -/

theorem at?_put (disk : Disk) {location other : Location} (h : location ≠ []) (entry : Entry) :
    (disk.put location entry).at? other =
      if location = other then some entry else disk.at? other := by
  unfold at? put
  by_cases ho : other = []
  · have hne : location ≠ other := ho ▸ h
    simp [ho, h]
  · simp [ho, Keyed.get?_put]

theorem at?_eq_get? (disk : Disk) {location : Location} (h : location ≠ []) :
    disk.at? location = Keyed.get? location disk.entries := by
  simp [at?, h]

/-- A new file that is removed again was never there. -/
theorem drop_put_of_free {location : Location} (hne : location ≠ [])
    (h : disk.at? location = none) (entry : Entry) :
    (disk.put location entry).drop location = disk := by
  rw [at?_eq_get? disk hne] at h
  simp [put, drop, Keyed.drop_put h]

theorem put_put (disk : Disk) (location : Location) (first second : Entry) :
    (disk.put location first).put location second = disk.put location second := by
  simp [put, Keyed.put_put]

/-! ## Frames -/

/-- Two disks are the same off some places. -/
structure AgreeOff (places : Location → Prop) (a b : Disk) : Prop where
  here : b.here = a.here
  closed : b.sealed = a.sealed
  entries : ∀ location, ¬places location → b.at? location = a.at? location

namespace AgreeOff

variable {p q : Location → Prop}

theorem refl (p : Location → Prop) (a : Disk) : AgreeOff p a a := ⟨rfl, rfl, fun _ _ => rfl⟩

theorem trans (h : AgreeOff p a b) (k : AgreeOff p b c) : AgreeOff p a c :=
  ⟨k.here.trans h.here, k.closed.trans h.closed,
    fun l hl => (k.entries l hl).trans (h.entries l hl)⟩

theorem mono (h : AgreeOff p a b) (hpq : ∀ l, p l → q l) : AgreeOff q a b :=
  ⟨h.here, h.closed, fun l hl => h.entries l fun hp => hl (hpq l hp)⟩

end AgreeOff

theorem agreeOff_put (disk : Disk) {location : Location} (h : location ≠ []) (entry : Entry) :
    AgreeOff (· = location) disk (disk.put location entry) := by
  refine ⟨rfl, rfl, ?_⟩
  intro other hother
  rw [at?_put disk h, if_neg (fun heq => hother heq.symm)]

/-! ## Directories -/

def DirectoriesIn (a b : Disk) : Prop :=
  ∀ location, a.at? location = some .directory → b.at? location = some .directory

theorem checkDirectory_eq_ok_iff {location : Location} :
    disk.checkDirectory location = .ok () ↔ disk.at? location = some .directory := by
  unfold checkDirectory
  split <;> rename_i h <;> simp [h]

def advance (location : Location) (part : String) : Except Failure Location :=
  if part = "" ∨ part = "." then .ok location
  else if part = ".." then .ok location.tail
  else if maxName < part.utf8ByteSize then .error .nameTooLong
  else .ok (part :: location)

theorem walk_cons (disk : Disk) (location : Location) (part : String) (parts : List String) :
    disk.walk location (part :: parts) =
      (disk.checkDirectory location).bind fun _ =>
        (advance location part).bind fun next => disk.walk next parts := by
  rw [walk, advance]
  cases disk.checkDirectory location with
  | error failure => rfl
  | ok _ => simp only [bind, Except.bind]; repeat' split <;> try rfl

theorem walk_append (disk : Disk) (start : Location) (first second : List String) :
    disk.walk start (first ++ second) =
      (disk.walk start first).bind fun location => disk.walk location second := by
  induction first generalizing start with
  | nil => rfl
  | cons part first ih =>
      rw [List.cons_append, walk_cons, walk_cons]
      cases disk.checkDirectory start with
      | error failure => rfl
      | ok _ =>
          dsimp only [Except.bind]
          cases advance start part with
          | error failure => rfl
          | ok next => exact ih next

theorem walk_of_directoriesIn (h : DirectoriesIn a b) {start found : Location}
    {parts : List String} (hwalk : a.walk start parts = .ok found) :
    b.walk start parts = .ok found := by
  induction parts generalizing start with
  | nil => exact hwalk
  | cons part parts ih =>
      rw [walk_cons] at hwalk ⊢
      cases hcheck : a.checkDirectory start with
      | error failure => simp [hcheck, Except.bind] at hwalk
      | ok _ =>
          have hb := checkDirectory_eq_ok_iff.mpr (h start (checkDirectory_eq_ok_iff.mp hcheck))
          rw [hcheck] at hwalk
          rw [hb]
          dsimp only [Except.bind] at hwalk ⊢
          cases hnext : advance start part with
          | error failure => simp [hnext] at hwalk
          | ok next =>
              rw [hnext] at hwalk
              exact ih hwalk

theorem directoriesIn_put {location : Location} (hne : location ≠ [])
    (h : disk.at? location ≠ some .directory) (entry : Entry) :
    DirectoriesIn disk (disk.put location entry) := by
  intro other hother
  rw [at?_put disk hne, if_neg]
  · exact hother
  · rintro rfl
    exact h hother

theorem directoriesIn_of_put_file {location : Location} (hne : location ≠ []) (bytes : ByteArray) :
    DirectoriesIn (disk.put location (.file bytes)) disk := by
  intro other hother
  rw [at?_put disk hne] at hother
  split at hother
  · simp at hother
  · exact hother

/-! ## Places -/

/-- What a slot says of its path: the parts, the last of which may be a name, and the directory that
the others lead to. -/
theorem slot_eq_ok {path : String} {slot : Slot} (h : disk.slot path = .ok slot) :
    checkPath path = .ok () ∧
      disk.walk (disk.start path) (dropSlashes (Path.parts path)).dropLast = .ok slot.directory ∧
        disk.at? slot.directory = some .directory := by
  unfold Disk.slot at h
  obtain ⟨_, hpath, h⟩ := bind_eq_ok.mp h
  obtain ⟨directory, hwalk, h⟩ := bind_eq_ok.mp h
  obtain ⟨_, hcheck, h⟩ := bind_eq_ok.mp h
  have hslot : slot.directory = directory := by
    split at h
    · cases h
      rfl
    · split at h
      · cases h
        rfl
      · split at h
        · simp at h
        · cases h
          rfl
  rw [hslot]
  exact ⟨hpath, hwalk, checkDirectory_eq_ok_iff.mp hcheck⟩

theorem slot_of_directoriesIn (h : DirectoriesIn a b) (hhere : b.here = a.here) {path : String}
    {slot : Slot} (hslot : a.slot path = .ok slot) : b.slot path = .ok slot := by
  obtain ⟨hpath, hwalk, hdirectory⟩ := slot_eq_ok hslot
  have hstart : b.start path = a.start path := by simp [start, hhere]
  have hwalk' := walk_of_directoriesIn h hwalk
  rw [← hstart] at hwalk'
  rw [← hslot]
  unfold Disk.slot
  simp only [hpath, hwalk, hwalk', checkDirectory_eq_ok_iff.mpr hdirectory,
    checkDirectory_eq_ok_iff.mpr (h _ hdirectory), bind, Except.bind]

def place? (disk : Disk) (path : String) : Option Location :=
  match disk.slot path with
  | .ok ⟨directory, some name, false⟩ => some (name :: directory)
  | _ => none

theorem place?_eq_some_iff {path : String} {place : Location} :
    disk.place? path = some place ↔
      ∃ directory name, place = name :: directory ∧
        disk.slot path = .ok ⟨directory, some name, false⟩ := by
  unfold place?
  constructor
  · intro h
    split at h
    · rename_i directory name hslot
      cases h
      exact ⟨directory, name, rfl, hslot⟩
    · simp at h
  · rintro ⟨directory, name, rfl, hslot⟩
    rw [hslot]

theorem place?_of_directoriesIn (h : DirectoriesIn a b) (hhere : b.here = a.here) {path : String}
    {place : Location} (hplace : a.place? path = some place) : b.place? path = some place := by
  obtain ⟨directory, name, rfl, hslot⟩ := place?_eq_some_iff.mp hplace
  exact place?_eq_some_iff.mpr ⟨directory, name, rfl, slot_of_directoriesIn h hhere hslot⟩

theorem place?_ne_nil {path : String} {place : Location} (h : disk.place? path = some place) :
    place ≠ [] := by
  obtain ⟨directory, name, rfl, _⟩ := place?_eq_some_iff.mp h
  exact List.cons_ne_nil name directory

theorem dropSlashes_of_length {parts : List String}
    (h : parts.length ≤ (dropSlashes parts).length) : dropSlashes parts = parts := by
  have hsuffix := List.dropWhile_suffix (l := parts.reverse) (· = "")
  have hlength := hsuffix.length_le
  rw [dropSlashes, List.length_reverse] at h
  rw [dropSlashes, hsuffix.eq_of_length (by simp at *; omega), List.reverse_reverse]

theorem ne_empty_of_getLast? {parts : List String} {name : String}
    (h : (dropSlashes parts).getLast? = some name) : name ≠ "" := by
  rw [dropSlashes, List.getLast?_reverse] at h
  have hnot := List.head?_dropWhile_not (· = "") parts.reverse
  rw [h] at hnot
  simpa using hnot

theorem parts_of_slot {path : String} {directory : Location} {name : String}
    (h : disk.slot path = .ok ⟨directory, some name, false⟩) :
    Path.parts path = (dropSlashes (Path.parts path)).dropLast ++ [name] ∧
      advance directory name = .ok (name :: directory) := by
  obtain ⟨hpath, hwalk, hdirectory⟩ := slot_eq_ok h
  unfold Disk.slot at h
  simp only [hpath, hwalk, checkDirectory_eq_ok_iff.mpr hdirectory, bind, Except.bind] at h
  split at h
  · simp at h
  · rename_i last hlast
    split at h
    · simp at h
    · rename_i hdots
      split at h
      · simp at h
      · rename_i hlong
        simp only [Except.ok.injEq, Slot.mk.injEq, Option.some.injEq, true_and,
          decide_eq_false_iff_not, Nat.not_lt] at h
        obtain ⟨rfl, hlength⟩ := h
        have hkept := dropSlashes_of_length hlength
        have hne : last ≠ "" := ne_empty_of_getLast? hlast
        refine ⟨?_, ?_⟩
        · rw [hkept] at hlast ⊢
          obtain ⟨front, hfront⟩ := List.getLast?_eq_some_iff.mp hlast
          rw [hfront, List.dropLast_concat]
        · rw [not_or] at hdots
          simp [advance, hne, hdots, hlong]

theorem walk_of_place? {path : String} {place : Location} (h : disk.place? path = some place) :
    disk.walk (disk.start path) (Path.parts path) = .ok place := by
  obtain ⟨directory, name, rfl, hslot⟩ := place?_eq_some_iff.mp h
  obtain ⟨_, hwalk, hdirectory⟩ := slot_eq_ok hslot
  obtain ⟨hparts, hadvance⟩ := parts_of_slot hslot
  rw [hparts, walk_append, hwalk]
  dsimp only [Except.bind]
  rw [walk_cons, checkDirectory_eq_ok_iff.mpr hdirectory, hadvance]
  rfl

/-- The file at the place of a path is what is read there. -/
theorem read_of_place? {path : String} {place : Location} {bytes : ByteArray}
    (hplace : disk.place? path = some place) (hfile : disk.at? place = some (.file bytes)) :
    disk.read path = .ok bytes := by
  have hwhole := walk_of_place? hplace
  obtain ⟨directory, name, rfl, hslot⟩ := place?_eq_some_iff.mp hplace
  simp [read, locate, (slot_eq_ok hslot).1, hwhole, hfile, bind, Except.bind]

/-! ## Disks with the same tree -/

/-- Two disks have directories and files at the same places; the files may differ. -/
structure SameTree (a b : Disk) : Prop where
  here : b.here = a.here
  room : b.isFull = a.isFull
  check : ∀ location, b.checkDirectory location = a.checkDirectory location

namespace SameTree

theorem refl (a : Disk) : SameTree a a := ⟨rfl, rfl, fun _ => rfl⟩

theorem trans (h : SameTree a b) (k : SameTree b c) : SameTree a c :=
  ⟨k.here.trans h.here, k.room.trans h.room, fun l => (k.check l).trans (h.check l)⟩

theorem walk (h : SameTree a b) (start : Location) (parts : List String) :
    b.walk start parts = a.walk start parts := by
  induction parts generalizing start with
  | nil => rfl
  | cons part parts ih => simp only [walk_cons, h.check, ih]

theorem slot (h : SameTree a b) (path : String) : b.slot path = a.slot path := by
  have hstart : b.start path = a.start path := by simp [start, h.here]
  simp only [Disk.slot, hstart, h.walk, h.check]

theorem place? (h : SameTree a b) (path : String) : b.place? path = a.place? path := by
  simp only [Disk.place?, h.slot]

theorem read (h : SameTree a b) {path : String}
    (hfile : ∀ location, a.walk (a.start path) (Path.parts path) = .ok location →
      b.at? location = a.at? location) : b.read path = a.read path := by
  have hstart : b.start path = a.start path := by simp [start, h.here]
  simp only [Disk.read, Disk.locate, hstart, h.walk]
  cases hwalk : a.walk (a.start path) (Path.parts path) with
  | error failure => rfl
  | ok location =>
      simp only [bind, Except.bind]
      rw [hfile location hwalk]

end SameTree

theorem sameTree_put_file {location : Location} {old : ByteArray} (hne : location ≠ [])
    (h : disk.at? location = some (.file old)) (bytes : ByteArray) :
    SameTree disk (disk.put location (.file bytes)) := by
  refine ⟨rfl, rfl, ?_⟩
  intro other
  unfold checkDirectory
  rw [at?_put disk hne]
  by_cases hother : location = other
  · rw [if_pos hother, ← hother, h]
  · rw [if_neg hother]

/-! ## Operations -/

theorem ne_nil_of_at?_file {location : Location} {bytes : ByteArray}
    (h : disk.at? location = some (.file bytes)) : location ≠ [] := by
  rintro rfl
  simp [at?] at h

/-- Writing into a file changes that file alone, and no tree. -/
theorem writeAt_frame (disk : Disk) (location : Location) (offset : Nat) (bytes : ByteArray) :
    SameTree disk (disk.writeAt location offset bytes) ∧
      AgreeOff (· = location) disk (disk.writeAt location offset bytes) := by
  unfold writeAt
  cases hat : disk.at? location with
  | none => exact ⟨.refl disk, .refl _ disk⟩
  | some entry =>
      cases entry with
      | directory => exact ⟨.refl disk, .refl _ disk⟩
      | file old =>
          have hne := ne_nil_of_at?_file hat
          exact ⟨sameTree_put_file hne hat _, agreeOff_put disk hne _⟩

theorem freeLocation_eq_ok {directory fresh : Location} {name : Nat → String} {attempts i : Nat}
    (h : disk.freeLocation directory name attempts i = .ok fresh) :
    fresh ≠ [] ∧ disk.at? fresh = none := by
  induction attempts generalizing i with
  | zero => simp [freeLocation] at h
  | succ attempts ih =>
      rw [freeLocation] at h
      split at h
      · exact ih h
      · rename_i hfree
        cases h
        exact ⟨List.cons_ne_nil _ _, by simpa using hfree⟩

theorem createIn_eq_ok {directory : String} {name : Nat → String} {fresh : Location}
    {created : Disk} (h : disk.createIn directory name = .ok (fresh, created)) :
    fresh ≠ [] ∧ disk.at? fresh = none ∧ created = disk.put fresh (.file .empty) := by
  unfold createIn at h
  obtain ⟨_, _, h⟩ := bind_eq_ok.mp h
  obtain ⟨location, _, h⟩ := bind_eq_ok.mp h
  obtain ⟨_, _, h⟩ := bind_eq_ok.mp h
  obtain ⟨found, hfree, h⟩ := bind_eq_ok.mp h
  obtain ⟨_, _, h⟩ := bind_eq_ok.mp h
  cases h
  obtain ⟨hne, hnone⟩ := freeLocation_eq_ok hfree
  exact ⟨hne, hnone, rfl⟩

theorem rename_eq_ok {source target : Location} {path : String} {moved : Disk}
    (h : disk.rename source path = .ok (target, moved)) :
    disk.place? path = some target ∧ disk.at? target ≠ some .directory ∧
      ∃ entry, disk.at? source = some entry ∧ moved = (disk.drop source).put target entry := by
  unfold rename at h
  split at h
  · simp [bind, Except.bind] at h
  · obtain ⟨⟨directory, name, isSlashed⟩, hslot, h⟩ := bind_eq_ok.mp h
    cases name with
    | none => simp at h
    | some name =>
        cases isSlashed with
        | true => simp [bind, Except.bind] at h
        | false =>
            simp only [Bool.false_eq_true, if_false] at h
            obtain ⟨_, _, h⟩ := bind_eq_ok.mp h
            split at h
            · simp at h
            · simp at h
            · rename_i entry hentry hdirectory
              cases h
              exact ⟨place?_eq_some_iff.mpr ⟨directory, name, rfl, hslot⟩, hdirectory, entry,
                hentry, rfl⟩

end Disk

end Files

end RehashChart
