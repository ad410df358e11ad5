import RehashChart.Proofs.Files.Disk

/-! # The parts of joined paths

The parts of a path in a directory are the directory's parts and then its own.
-/

namespace RehashChart

namespace Text

variable {separator : Char} {cs : List Char}

theorem splitAt_ne_nil (separator : Char) (cs : List Char) : splitAt separator cs ≠ [] := by
  cases cs with
  | nil => simp [splitAt]
  | cons c cs =>
      rw [splitAt]
      split
      · simp
      · split <;> simp

theorem splitAt_cons_of_ne {c : Char} {part : List Char} {parts : List (List Char)}
    (hc : c ≠ separator) (h : splitAt separator cs = part :: parts) :
    splitAt separator (c :: cs) = (c :: part) :: parts := by
  rw [splitAt, if_neg hc, h]

theorem splitAt_append (separator : Char) (first second : List Char) :
    splitAt separator (first ++ separator :: second) =
      splitAt separator first ++ splitAt separator second := by
  induction first with
  | nil => simp [splitAt]
  | cons c first ih =>
      by_cases hc : c = separator
      · simp [splitAt, hc, ih]
      · obtain ⟨part, parts, hparts⟩ := List.exists_cons_of_ne_nil (splitAt_ne_nil separator first)
        rw [hparts] at ih
        rw [List.cons_append, splitAt_cons_of_ne hc ih, splitAt_cons_of_ne hc hparts]
        rfl

theorem splitAt_of_notMem (h : separator ∉ cs) : splitAt separator cs = [cs] := by
  induction cs with
  | nil => rfl
  | cons c cs ih =>
      rw [List.mem_cons, not_or] at h
      exact splitAt_cons_of_ne (Ne.symm h.1) (ih h.2)

theorem splitAt_eq_singleton {part : List Char} (h : splitAt separator cs = [part]) :
    part = cs := by
  by_cases hmem : separator ∈ cs
  · obtain ⟨first, second, rfl⟩ := List.append_of_mem hmem
    rw [splitAt_append] at h
    have hlength := congrArg List.length h
    have hfirst := List.length_pos_iff.mpr (splitAt_ne_nil separator first)
    have hsecond := List.length_pos_iff.mpr (splitAt_ne_nil separator second)
    rw [List.length_append, List.length_singleton] at hlength
    omega
  · rw [splitAt_of_notMem hmem] at h
    exact (List.cons.inj h).1.symm

end Text

namespace Files

namespace Path

theorem parts_slash (first second : String) :
    parts (first ++ "/" ++ second) = parts first ++ parts second := by
  have hlist : (first ++ "/" ++ second).toList = first.toList ++ '/' :: second.toList := by simp
  rw [parts, Text.splitText, hlist, Text.splitAt_append, List.map_append]
  rfl

theorem parts_of_notMem {name : String} (h : '/' ∉ name.toList) : parts name = [name] := by
  simp [parts, Text.splitText, Text.splitAt_of_notMem h]

theorem isAbsolute_of_notMem {name : String} (h : '/' ∉ name.toList) : isAbsolute name = false := by
  unfold isAbsolute
  cases hname : name.toList with
  | nil => rfl
  | cons c cs =>
      rw [hname, List.mem_cons, not_or] at h
      simpa using Ne.symm h.1

theorem parts_join (directory : String) {name : String} (h : '/' ∉ name.toList) :
    ∃ front, parts (join directory name) = front ++ [name] := by
  rw [join, isAbsolute_of_notMem h, Bool.false_or, ← parts_of_notMem h]
  split
  · exact ⟨[], rfl⟩
  · split
    · rename_i hslash
      obtain ⟨front, hfront⟩ := List.getLast?_eq_some_iff.mp hslash
      have hdirectory : directory = String.ofList front ++ "/" := by
        rw [← String.toList_inj]
        simp [hfront]
      rw [hdirectory, parts_slash]
      exact ⟨_, rfl⟩
    · rw [parts_slash]
      exact ⟨_, rfl⟩

theorem le_utf8ByteSize_join (directory : String) {name : String}
    (h : isAbsolute name = false) :
    directory.utf8ByteSize + name.utf8ByteSize ≤ (join directory name).utf8ByteSize := by
  rw [join, h, Bool.false_or]
  split
  · rename_i hempty
    simp [of_decide_eq_true hempty]
  · split
    · simp
    · simp only [String.utf8ByteSize_append]
      omega

theorem trimReversed_of_ne {c : Char} (cs : List Char) (hslash : c ≠ '/') (hpoint : c ≠ '.') :
    trimReversed (c :: cs) = c :: cs := by
  unfold trimReversed
  split <;> simp_all

/-- The directory of a name is all before it, if nothing there can be left out. -/
theorem directory_slash {front name : String} {body : List Char} {c : Char}
    (hname : '/' ∉ name.toList) (hlast : name.toList = body ++ [c]) (hc : c ≠ '.')
    (hne : front ≠ "") (hfront : trimReversed front.toList.reverse = front.toList.reverse) :
    directory (front ++ "/" ++ name) = front := by
  have hslash : c ≠ '/' := by
    rintro rfl
    simp [hlast] at hname
  have hreversed : (front ++ "/" ++ name).toList.reverse =
      name.toList.reverse ++ '/' :: front.toList.reverse := by simp
  have hall : ∀ d ∈ name.toList.reverse, isNoSlash d = true := by
    intro d hd
    have hmem : d ∈ name.toList := List.mem_reverse.mp hd
    simp only [isNoSlash, ne_eq, decide_eq_true_eq]
    rintro rfl
    exact hname hmem
  have htrim : trimReversed (name.toList.reverse ++ '/' :: front.toList.reverse) =
      name.toList.reverse ++ '/' :: front.toList.reverse := by
    rw [hlast, List.reverse_append]
    exact trimReversed_of_ne _ hslash hc
  have hback : front.toList.reverse ≠ [] := by simpa using hne
  have hparent : trimReversed ('/' :: front.toList.reverse) = front.toList.reverse := by
    rw [trimReversed, if_neg hback, hfront]
  rw [directory, hreversed, htrim]
  simp only [List.takeWhile_append_of_pos hall, List.dropWhile_append_of_pos hall]
  simp [List.takeWhile, List.dropWhile, isNoSlash, hparent, hback, hlast]

end Path

namespace Disk

variable {disk : Disk}

theorem checkPath_eq_ok_iff {path : String} :
    checkPath path = .ok () ↔
      '\x00' ∉ path.toList ∧ path ≠ "" ∧ path.utf8ByteSize ≤ maxPath := by
  unfold checkPath
  rw [String.contains_char_eq]
  split
  · rename_i hnul
    simp_all
  · split
    · simp_all
    · split
      · simp_all
      · simp_all

theorem walk_points {location : Location} (h : disk.at? location = some .directory) (n : Nat)
    (parts : List String) :
    disk.walk location (List.replicate n "." ++ parts) = disk.walk location parts := by
  induction n with
  | zero => rfl
  | succ n ih =>
      rw [List.replicate_succ, List.cons_append, walk_cons, checkDirectory_eq_ok_iff.mpr h]
      exact ih

theorem place?_of_parts {path name : String} {front : List String} {directory : Location}
    (hpath : checkPath path = .ok ()) (hparts : Path.parts path = front ++ [name])
    (hempty : name ≠ "") (hpoints : name ≠ "." ∧ name ≠ "..") (hsize : name.utf8ByteSize ≤ maxName)
    (hwalk : disk.walk (disk.start path) front = .ok directory)
    (hdirectory : disk.at? directory = some .directory) :
    disk.place? path = some (name :: directory) := by
  have hkept : dropSlashes (front ++ [name]) = front ++ [name] := by
    simp [dropSlashes, hempty]
  refine place?_eq_some_iff.mpr ⟨directory, name, rfl, ?_⟩
  unfold slot
  simp only [hpath, hparts, hkept, List.dropLast_concat, hwalk,
    checkDirectory_eq_ok_iff.mpr hdirectory, List.getLast?_concat, hpoints, bind, Except.bind]
  rw [if_neg (by simp), if_neg (by omega)]
  simp

theorem place?_join {directory name : String} {target : Location} (h : '/' ∉ name.toList)
    (hplace : disk.place? (Path.join directory name) = some target) :
    ∃ location, target = name :: location := by
  obtain ⟨location, last, rfl, hslot⟩ := place?_eq_some_iff.mp hplace
  obtain ⟨front, hfront⟩ := Path.parts_join directory h
  have hparts := (parts_of_slot hslot).1
  rw [hfront] at hparts
  have hlast := congrArg List.getLast? hparts
  simp only [List.getLast?_append, List.getLast?_singleton, Option.some_or, Option.some.injEq]
    at hlast
  exact ⟨location, by rw [hlast]⟩

end Disk

end Files

end RehashChart
