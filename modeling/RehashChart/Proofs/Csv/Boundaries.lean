import Mathlib.Data.List.Infix
import RehashChart.Proofs.Csv.Reading

/-! # Where records begin

A reader that stands between two records goes on as one that begins there. So the bytes of an input
can be cut before each of its records, and the position of a record is the number of bytes, and of
lines, before the cut.
-/

namespace RehashChart.Csv

/-! ## Places -/

def Position.afterAll (p : Position) (bytes : List UInt8) : Position := bytes.foldl Position.after p

theorem Position.afterAll_append (p : Position) (a b : List UInt8) :
    p.afterAll (a ++ b) = (p.afterAll a).afterAll b := List.foldl_append

theorem Position.afterAll_eq (p : Position) (bytes : List UInt8) :
    p.afterAll bytes = ⟨p.line + bytes.count lineFeed, p.byte + bytes.length⟩ := by
  induction bytes generalizing p with
  | nil => rfl
  | cons b rest ih =>
      rw [afterAll, List.foldl_cons, ← afterAll, ih, after, List.count_cons, List.length_cons]
      by_cases hb : b = lineFeed
      · simp [hb]
        omega
      · simp [hb]
        omega

/-! ## One record after the other -/

theorem Phase.step_outside {p q : Phase} {b : UInt8} {fields : Array Field}
    (h : p.step b = (q, some fields)) : q = .outside := by
  have hbare : ∀ {done : Array Field} {field : Field},
      inBare done field b = (q, some fields) → q = .outside := by
    intro done field h
    unfold inBare at h
    split at h
    · simp at h
    split at h
    · exact (Prod.ext_iff.mp h).1.symm
    · simp at h
  have hfield : ∀ {done : Array Field}, atField done b = (q, some fields) → q = .outside := by
    intro done h
    unfold atField at h
    split at h
    · simp at h
    · exact hbare h
  cases p with
  | outside =>
      rw [step] at h
      split at h
      · simp at h
      · exact hfield h
  | opened done => exact hfield h
  | bare done field => exact hbare h
  | quoted done field =>
      rw [step] at h
      split at h <;> simp at h
  | closing done field =>
      rw [step] at h
      split at h
      · simp at h
      · exact hbare h

namespace Reader

theorem feedAll_cons (r : Reader) (b : UInt8) (rest : List UInt8) :
    r.feedAll (b :: rest) = (r.feed b).feedAll rest := rfl

theorem feed_of_none {r : Reader} {b : UInt8} {q : Phase} (h : r.phase.step b = (q, none)) :
    r.feed b = ⟨r.records, q, r.start, r.here.after b⟩ := by
  unfold feed
  rw [h]

theorem feed_of_some {r : Reader} {b : UInt8} {q : Phase} {fields : Array Field}
    (h : r.phase.step b = (q, some fields)) :
    r.feed b = ⟨r.records.push ⟨r.start, fields.toList⟩, .outside, r.here.after b,
      r.here.after b⟩ := by
  unfold feed
  rw [h, Phase.step_outside h]

theorem feedAll_of_run_eq_nil {r : Reader} {bytes : List UInt8} (h : (r.phase.run bytes).2 = []) :
    r.feedAll bytes = ⟨r.records, (r.phase.run bytes).1, r.start, r.here.afterAll bytes⟩ := by
  induction bytes generalizing r with
  | nil => rfl
  | cons b rest ih =>
      rw [Phase.run] at h
      cases hstep : r.phase.step b with
      | mk q completed =>
          rw [hstep] at h
          cases completed with
          | some fields => simp at h
          | none =>
              have hfeed := feed_of_none hstep
              have hrest := ih (r := r.feed b) (by rw [hfeed]; simpa using h)
              rw [hfeed] at hrest
              rw [feedAll_cons, hfeed, hrest, Phase.run, hstep]
              rfl

/-- If bytes complete any record, then a first part of them completes the one that had begun, and
leaves the reader between two records. -/
theorem exists_first {r : Reader} {bytes : List UInt8} (h : (r.phase.run bytes).2 ≠ []) :
    ∃ a b fields, bytes = a ++ b ∧
      r.feedAll a = ⟨r.records.push ⟨r.start, fields⟩, .outside, r.here.afterAll a,
        r.here.afterAll a⟩ := by
  induction bytes generalizing r with
  | nil => exact absurd rfl h
  | cons x rest ih =>
      rw [Phase.run] at h
      cases hstep : r.phase.step x with
      | mk q completed =>
          rw [hstep] at h
          cases completed with
          | some fields => exact ⟨[x], rest, fields.toList, rfl, feed_of_some hstep⟩
          | none =>
              have hfeed := feed_of_none hstep
              obtain ⟨a, b, fields, hsplit, hfirst⟩ :=
                ih (r := r.feed x) (by rw [hfeed]; simpa using h)
              rw [hfeed] at hfirst
              exact ⟨x :: a, b, fields, by rw [hsplit]; rfl, by rw [feedAll_cons, hfeed, hfirst]; rfl⟩

theorem feedAll_here (r : Reader) (bytes : List UInt8) :
    (r.feedAll bytes).here = r.here.afterAll bytes := by
  induction bytes generalizing r with
  | nil => rfl
  | cons b rest ih =>
      have hhere : (r.feed b).here = r.here.after b := by
        unfold feed
        split <;> rfl
      rw [feedAll_cons, ih, hhere]
      rfl

theorem records_isPrefix (r : Reader) (bytes : List UInt8) :
    r.records.toList <+: (r.feedAll bytes).records.toList := by
  induction bytes generalizing r with
  | nil => exact List.prefix_rfl
  | cons b rest ih =>
      refine List.IsPrefix.trans ?_ (ih (r.feed b))
      cases hstep : r.phase.step b with
      | mk q completed =>
          cases completed with
          | none => rw [feed_of_none hstep]
          | some fields =>
              rw [feed_of_some hstep, Array.toList_push]
              exact List.prefix_append _ _

theorem records_isPrefix_all (r : Reader) : r.records.toList <+: r.all := List.prefix_append _ _

theorem all_of_outside {r : Reader} (h : r.phase = .outside) : r.all = r.records.toList := by
  simp [all, pending, h, Phase.pending]

theorem getElem?_all (r : Reader) (bytes : List UInt8) :
    (r.feedAll bytes).all[r.records.size]? =
      (r.phase.reads bytes).head?.map fun fields => ⟨r.start, fields⟩ := by
  have hfields := congrArg (·[r.records.size]?) (r.map_fields_feedAll bytes)
  simp only [List.getElem?_map] at hfields
  rw [List.getElem?_append_right (by simp), List.length_map, Array.length_toList, Nat.sub_self,
    ← List.head?_eq_getElem?] at hfields
  rw [← hfields, Option.map_map]
  have hstart : ∀ record, (r.feedAll bytes).all[r.records.size]? = some record →
      record.start = r.start := by
    intro record hrecord
    by_cases hrun : (r.phase.run bytes).2 = []
    · rw [feedAll_of_run_eq_nil hrun, all, List.getElem?_append_right (by simp)] at hrecord
      obtain ⟨fields, _, rfl⟩ :=
        Option.map_eq_some_iff.mp (Option.mem_toList.mp (List.mem_of_getElem? hrecord))
      rfl
    · obtain ⟨a, b, fields, rfl, hfirst⟩ := exists_first hrun
      obtain ⟨more, hmore⟩ := (records_isPrefix (r.feedAll a) b).trans (records_isPrefix_all _)
      rw [feedAll_append, ← hmore, hfirst, Array.toList_push, List.append_assoc,
        List.getElem?_append_right (by simp)] at hrecord
      simp only [Array.length_toList, Nat.sub_self, List.cons_append, List.getElem?_cons_zero,
        Option.some.injEq] at hrecord
      rw [← hrecord]
  cases hrecord : (r.feedAll bytes).all[r.records.size]? with
  | none => rfl
  | some record => simp [← hstart record hrecord]

/-- A reader that stands between two records reads each of the further ones as a reader does that
begins where the record says. -/
theorem exists_cut {r : Reader} (hphase : r.phase = .outside) {bytes : List UInt8} {i : Nat}
    {record : Record} (h : (r.feedAll bytes).all[r.records.size + i]? = some record) :
    ∃ a b, bytes = a ++ b ∧ (r.feedAll a).phase = .outside ∧
      (r.feedAll a).all = (r.feedAll bytes).all.take (r.records.size + i) ∧
      (0 < i ∨ r.start = r.here → (r.feedAll a).here = record.start) ∧
      (Phase.outside.reads b).head? = some record.fields := by
  -- each step takes the bytes of one record away, and the reader after them is outside again
  induction i generalizing r bytes with
  | zero =>
      rw [Nat.add_zero, getElem?_all, hphase] at h
      obtain ⟨fields, hfields, rfl⟩ := Option.map_eq_some_iff.mp h
      refine ⟨[], bytes, rfl, hphase, ?_, ?_, hfields⟩
      · have hprefix := (r.records_isPrefix bytes).trans (records_isPrefix_all _)
        rw [Nat.add_zero, ← Array.length_toList, ← List.prefix_iff_eq_take.mp hprefix]
        exact all_of_outside hphase
      · rintro (h | h)
        · exact absurd h (Nat.lt_irrefl 0)
        · exact h.symm
  | succ i ih =>
      -- else only one record is left, the one that the end of the bytes completes
      have hrun : (r.phase.run bytes).2 ≠ [] := by
        intro hrun
        have hless := (List.getElem?_eq_some_iff.mp h).choose
        have hlength : (r.feedAll bytes).all.length ≤ r.records.size + 1 := by
          rw [feedAll_of_run_eq_nil hrun, all, List.length_append]
          exact Nat.add_le_add_left Option.length_toList_le _
        omega
      obtain ⟨a, rest, fields, rfl, hfirst⟩ := exists_first hrun
      have hsize : (r.feedAll a).records.size + i = r.records.size + (i + 1) := by
        rw [hfirst, Array.size_push]
        omega
      rw [feedAll_append, ← hsize] at h
      obtain ⟨a', b, rfl, hphase', hall, hhere, hfields⟩ := ih (by rw [hfirst]) h
      rw [← feedAll_append] at hphase' hall hhere
      refine ⟨a ++ a', b, (List.append_assoc a a' b).symm, hphase', ?_, ?_, hfields⟩
      · rw [hall, ← feedAll_append, hsize]
      · intro _
        exact hhere (.inr (by rw [hfirst]))

end Reader

/-! ## Whole inputs -/

def Reader.afterMark (mark : List UInt8) : Reader :=
  ⟨#[], .outside, .origin, Position.origin.afterAll mark⟩

/-- An input is a mark or nothing, and what the reader is fed with; this does not change when the
input is cut after the mark. -/
theorem exists_mark (bytes : List UInt8) :
    ∃ mark rest, mark <+: byteOrderMark ∧ bytes = mark ++ rest ∧
      ∀ a b, rest = a ++ b → scan (mark ++ a) = (Reader.afterMark mark).feedAll a := by
  by_cases h : byteOrderMark <+: bytes
  · obtain ⟨rest, rfl⟩ := h
    exact ⟨byteOrderMark, rest, List.prefix_rfl, rfl, fun a b _ => rfl⟩
  · refine ⟨[], bytes, List.nil_prefix, rfl, ?_⟩
    rintro a b rfl
    exact scan_of_unmarked fun hmark => h (hmark.trans (List.prefix_append a b))

theorem records_of_prefix_mark {a : List UInt8} (h : a <+: byteOrderMark) :
    (scan a).records = #[] := by
  have hall : ∀ a ∈ byteOrderMark.inits, (scan a).records.size = 0 := by decide
  exact Array.eq_empty_of_size_eq_zero (hall a ((List.mem_inits a byteOrderMark).mpr h))

/-- Once a record is complete the mark has been passed, so the reader goes on from where it is. -/
theorem scan_append {a : List UInt8} (h : (scan a).records ≠ #[]) (b : List UInt8) :
    scan (a ++ b) = (scan a).feedAll b := by
  obtain ⟨mark, rest, hmark, hsplit, hscan⟩ := exists_mark (a ++ b)
  rcases List.append_eq_append_iff.mp hsplit with ⟨short, rfl, rfl⟩ | ⟨more, rfl, rfl⟩
  · exact absurd (records_of_prefix_mark ((List.prefix_append a short).trans hmark)) h
  · rw [hscan more b rfl, ← Reader.feedAll_append, ← hscan (more ++ b) [] (by simp),
      List.append_assoc]

/-- The records that are read from a place where a record has ended, or from the start of all. -/
def recordsFrom (bytes : List UInt8) (place : Position) : List Record :=
  if place.byte = 0 then (scan bytes).all
  else (Reader.feedAll ⟨#[], .outside, place, place⟩ (bytes.drop place.byte)).all

theorem recordsFrom_origin (bytes : List UInt8) : recordsFrom bytes .origin = (scan bytes).all :=
  if_pos rfl

theorem head?_recordsFrom {bytes : List UInt8} {place : Position} (h : place.byte ≠ 0) :
    (recordsFrom bytes place).head? =
      (Phase.outside.reads (bytes.drop place.byte)).head?.map fun fields => ⟨place, fields⟩ := by
  rw [recordsFrom, if_neg h, List.head?_eq_getElem?]
  exact Reader.getElem?_all ⟨#[], .outside, place, place⟩ (bytes.drop place.byte)

theorem start_of_first {bytes : List UInt8} {record : Record}
    (h : (scan bytes).all[0]? = some record) : record.start = .origin := by
  obtain ⟨mark, rest, -, rfl, hscan⟩ := exists_mark bytes
  rw [hscan rest [] (List.append_nil rest).symm] at h
  obtain ⟨fields, _, hrecord⟩ :=
    Option.map_eq_some_iff.mp (((Reader.afterMark mark).getElem?_all rest).symm.trans h)
  rw [← hrecord]
  rfl

theorem exists_cut_before {bytes : List UInt8} {i : Nat} {record : Record} (hpos : 0 < i)
    (h : (scan bytes).all[i]? = some record) :
    ∃ a b, bytes = a ++ b ∧ a ≠ [] ∧ record.start = Position.origin.afterAll a ∧
      (scan a).all = (scan bytes).all.take i ∧
      (Phase.outside.reads b).head? = some record.fields := by
  obtain ⟨mark, rest, -, rfl, hscan⟩ := exists_mark bytes
  have hrest := hscan rest [] (List.append_nil rest).symm
  have hsize : (Reader.afterMark mark).records.size + i = i := Nat.zero_add i
  have hrecord : ((Reader.afterMark mark).feedAll rest).all[
      (Reader.afterMark mark).records.size + i]? = some record := by
    rw [hsize, ← hrest]
    exact h
  obtain ⟨a, b, rfl, -, hall, hhere, hfields⟩ := Reader.exists_cut rfl hrecord
  have hstart := hhere (.inl hpos)
  rw [Reader.feedAll_here, Reader.afterMark, ← Position.afterAll_append] at hstart
  have hbefore : (scan (mark ++ a)).all = (scan (mark ++ (a ++ b))).all.take i := by
    rw [hscan a b rfl, hrest, hall, hsize]
  refine ⟨mark ++ a, b, (List.append_assoc mark a b).symm, ?_, hstart.symm, hbefore, hfields⟩
  -- no record is read from no bytes
  intro hempty
  have hlength := congrArg List.length hbefore
  have hless := (List.getElem?_eq_some_iff.mp h).choose
  rw [hempty, List.length_take] at hlength
  change 0 = min i _ at hlength
  omega

/-- What the position of a record says: its bytes and lines are those before it, the records before
it are those of these bytes, and what follows begins with it. -/
theorem start_of_record {bytes : List UInt8} {i : Nat} {record : Record}
    (h : (scan bytes).all[i]? = some record) :
    record.start = Position.origin.afterAll (bytes.take record.start.byte) ∧
      (i = 0 → record.start = .origin) ∧
      (0 < i → (scan (bytes.take record.start.byte)).all = (scan bytes).all.take i) ∧
      (recordsFrom bytes record.start).head? = some record := by
  rcases Nat.eq_zero_or_pos i with rfl | hpos
  · have hstart := start_of_first h
    rw [hstart]
    refine ⟨rfl, fun _ => rfl, fun hpos => absurd hpos (Nat.lt_irrefl 0), ?_⟩
    rw [recordsFrom_origin, List.head?_eq_getElem?]
    exact h
  · obtain ⟨a, b, rfl, hne, hstart, hbefore, hfields⟩ := exists_cut_before hpos h
    have hbyte : record.start.byte = a.length := by
      rw [hstart, Position.afterAll_eq]
      exact Nat.zero_add _
    have hbyte0 : record.start.byte ≠ 0 := by
      rw [hbyte]
      exact fun hzero => hne (List.length_eq_zero_iff.mp hzero)
    have htake : (a ++ b).take record.start.byte = a := by rw [hbyte, List.take_left]
    rw [htake]
    refine ⟨hstart, fun hzero => absurd hzero (Nat.ne_of_gt hpos), fun _ => hbefore, ?_⟩
    rw [head?_recordsFrom hbyte0, hbyte, List.drop_left, hfields]
    rfl

end RehashChart.Csv
