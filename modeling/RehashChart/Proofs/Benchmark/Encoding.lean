import RehashChart.Proofs.Benchmark.Faults
import RehashChart.Proofs.Csv.Boundaries
import RehashChart.Proofs.Text.Utf8

/-! # Where a table is not text

A field that is not UTF-8 ends the loading with the number of its record and of the field in it,
where the record begins, and how far the field is text. What is loaded is text in all fields.
-/

namespace RehashChart.Benchmark

open Text (IsLongestText)

def IsFirstFault (fields : List Csv.Field) (i n : Nat) : Prop :=
  ∃ field, fields[i]? = some field ∧ (∀ other ∈ fields.take i, other.IsValidUTF8) ∧
    ¬field.IsValidUTF8 ∧ IsLongestText field n

/-! ## Records -/

theorem decodeRecord_eq_invalidText {index record : Nat} {found : Csv.Record}
    {start : Csv.Position} {field validUpTo : Nat}
    (h : decodeRecord index found = .error (.table (.invalidText record start field validUpTo))) :
    record = index ∧ found.start = start ∧ IsFirstFault found.fields field validUpTo := by
  obtain ⟨cause, hcause, htable⟩ := mapError_eq_error.mp h
  cases htable
  obtain ⟨before, bad, after, n, hfields, hbefore, hbad, heq⟩ := decodeFields_eq_error hcause
  cases heq
  rw [Nat.zero_add, hfields]
  refine ⟨rfl, rfl, bad, ?_, ?_, Text.decode_eq_error_iff.mp hbad⟩
  · rw [List.getElem?_append_right (Nat.le_refl _), Nat.sub_self]
    rfl
  · rw [List.take_left]
    exact fun other hother => Text.exists_decode_iff.mp (hbefore other hother)

theorem isText_of_decodeRecord {index : Nat} {record : Csv.Record} {texts : List String}
    (h : decodeRecord index record = .ok texts) : ∀ field ∈ record.fields, field.IsValidUTF8 :=
  fun field hfield =>
    Text.exists_decode_iff.mp (decodeFields_eq_ok (mapError_eq_ok.mp h) field hfield)

theorem readRow_of_readFrom {columns : Columns} {first : Nat} {records : List Csv.Record}
    {samples : List Sample} (h : readFrom columns first records = .ok samples) :
    ∀ record ∈ records, ∃ row sample, columns.readRow record row = .ok sample := by
  induction records generalizing first samples with
  | nil => exact fun _ hrecord => absurd hrecord List.not_mem_nil
  | cons record records ih =>
      rw [readFrom_cons] at h
      obtain ⟨sample, hrow, h⟩ := bind_eq_ok.mp h
      obtain ⟨more, hmore, _⟩ := bind_eq_ok.mp h
      intro other hother
      rcases List.mem_cons.mp hother with rfl | hother
      · exact ⟨first, sample, hrow⟩
      · exact ih hmore other hother

/-! ## Lists of records -/

variable {records : List Csv.Record} {ending : Ending} {record field validUpTo : Nat}
  {start : Csv.Position}

theorem columnsOf_eq_invalidText {header : Csv.Record}
    (h : columnsOf header = .error (.table (.invalidText record start field validUpTo))) :
    record = 0 ∧ header.start = start ∧ IsFirstFault header.fields field validUpTo := by
  rcases bind_eq_error.mp h with h | ⟨_, _, h⟩
  · exact decodeRecord_eq_invalidText h
  · obtain ⟨column, hcolumn⟩ := ofHeader_eq_error h
    cases hcolumn

theorem readFrom_eq_invalidText {columns : Columns} {first : Nat}
    (h : readFrom columns first records =
      .error (.table (.invalidText record start field validUpTo))) :
    ∃ before found after samples, records = before ++ found :: after ∧
      readFrom columns first before = .ok samples ∧ record = first + before.length ∧
        found.start = start ∧ IsFirstFault found.fields field validUpTo := by
  obtain ⟨before, found, after, samples, hrecords, hbefore, hrow⟩ := readFrom_eq_error h
  rcases readRow_eq_error hrow with hrow | ⟨column, value, hvalue⟩
  · exact ⟨before, found, after, samples, hrecords, hbefore, decodeRecord_eq_invalidText hrow⟩
  · cases hvalue

theorem loadRecords_eq_invalidText
    (h : loadRecords ending records = .error (.table (.invalidText record start field validUpTo))) :
    ∃ found, records[record]? = some found ∧ found.start = start ∧
      IsFirstFault found.fields field validUpTo ∧
        ∀ rows, record = rows + 1 → ∃ samples,
          loadRecords .complete (records.take record) = .ok samples ∧ samples.length = rows := by
  cases records with
  | nil =>
      rw [loadRecords] at h
      rcases bind_eq_error.mp h with h | ⟨_, _, h⟩
      · cases ending <;> cases h
      rcases bind_eq_error.mp h with h | ⟨_, _, h⟩
      · obtain ⟨column, hcolumn⟩ := ofHeader_eq_error h
        cases hcolumn
      · cases h
  | cons header rows =>
      rw [loadRecords_cons] at h
      rcases bind_eq_error.mp h with h | ⟨columns, hcolumns, h⟩
      · obtain ⟨rfl, hstart, hfault⟩ := columnsOf_eq_invalidText h
        exact ⟨header, rfl, hstart, hfault,
          fun rows hrows => absurd hrows (Nat.zero_ne_add_one rows)⟩
      rcases bind_eq_error.mp h with h | ⟨_, _, h⟩
      · obtain ⟨before, found, after, samples, rfl, hbefore, rfl, hstart, hfault⟩ :=
          readFrom_eq_invalidText h
        rw [Nat.add_comm]
        refine ⟨found, ?_, hstart, hfault, ?_⟩
        · rw [List.getElem?_cons_succ, List.getElem?_append_right (Nat.le_refl _), Nat.sub_self]
          rfl
        · intro count hcount
          rw [List.take_succ_cons, List.take_left, loadRecords_cons, hcolumns, ok_bind,
            readToEnd_complete]
          exact ⟨samples, hbefore, by rw [length_of_readFrom hbefore]; omega⟩
      rcases bind_eq_error.mp h with h | ⟨_, _, h⟩
      · cases ending <;> cases h
      · cases h

theorem isText_of_loadRecords {samples : List Sample}
    (h : loadRecords ending records = .ok samples) :
    ∀ record ∈ records, ∀ field ∈ record.fields, field.IsValidUTF8 := by
  cases records with
  | nil => exact fun _ hrecord => absurd hrecord List.not_mem_nil
  | cons header rows =>
      rw [loadRecords_cons] at h
      obtain ⟨columns, hcolumns, h⟩ := bind_eq_ok.mp h
      obtain ⟨texts, hheader, _⟩ := bind_eq_ok.mp hcolumns
      obtain ⟨samples, hrows, _⟩ := bind_eq_ok.mp h
      intro record hrecord
      rcases List.mem_cons.mp hrecord with rfl | hrecord
      · exact isText_of_decodeRecord hheader
      · obtain ⟨row, sample, hrow⟩ := readRow_of_readFrom hrows record hrecord
        obtain ⟨texts, htexts, _⟩ := bind_eq_ok.mp hrow
        exact isText_of_decodeRecord htexts

/-! ## Inputs -/

theorem recordsOf_isPrefix_all (bytes : List UInt8) (ending : Ending) :
    recordsOf bytes ending <+: (Csv.scan bytes).all := by
  cases ending with
  | complete => exact List.prefix_rfl
  | broken complaint => exact Csv.Reader.records_isPrefix_all _

/-- The place in an error about text is right: the record begins after the given bytes and lines,
the bytes before it load with one row less than the record has as its number, the header apart, and
the field is the first one of the record that is not text. What loads is text throughout. -/
theorem invalidText_points (bytes : List UInt8) (ending : Ending) :
    (∀ record start field validUpTo,
      load bytes ending = .error (.table (.invalidText record start field validUpTo)) →
        (record = 0 → start.byte = 0 ∧ start.line = 1) ∧
        (∀ rows, record = rows + 1 → ∃ samples,
          load (bytes.take start.byte) .complete = .ok samples ∧ samples.length = rows) ∧
        start.line = 1 + (bytes.take start.byte).count Csv.lineFeed ∧
        ∃ found, (Csv.recordsFrom bytes start).head? = some found ∧
          IsFirstFault found.fields field validUpTo) ∧
      ∀ samples, load bytes ending = .ok samples →
        ∀ record ∈ recordsOf bytes ending, ∀ field ∈ record.fields, field.IsValidUTF8 := by
  refine ⟨?_, fun samples h => isText_of_loadRecords h⟩
  intro record start field validUpTo h
  obtain ⟨found, hfound, rfl, hfault, hbefore⟩ := loadRecords_eq_invalidText h
  obtain ⟨more, hmore⟩ := recordsOf_isPrefix_all bytes ending
  have hless := (List.getElem?_eq_some_iff.mp hfound).choose
  rw [← List.getElem?_append_left hless, hmore] at hfound
  obtain ⟨hplace, hfirst, hcut, hhead⟩ := Csv.start_of_record hfound
  refine ⟨?_, ?_, ?_, found, hhead, hfault⟩
  · intro hzero
    rw [hfirst hzero]
    exact ⟨rfl, rfl⟩
  · intro rows hrows
    obtain ⟨samples, hload, hlength⟩ := hbefore rows hrows
    refine ⟨samples, ?_, hlength⟩
    have hrecords : recordsOf (bytes.take found.start.byte) .complete =
        (recordsOf bytes ending).take record := by
      rw [← List.take_append_of_le_length (Nat.le_of_lt hless), hmore]
      exact hcut (by omega)
    rw [load, hrecords, hload]
  · rw [Csv.Position.afterAll_eq] at hplace
    exact congrArg Csv.Position.line hplace

/-- A mark, a quoted line break, every line end and doubled quotes before the byte that is at fault;
the rows up to its record are text. -/
theorem invalidText_points_past_quotes :
    let bytes := Csv.byteOrderMark ++ Csv.encodeText
      "insert size,rehash rounds,\"a\nb\"\r\n5,1,x\r\n\n\"7\",2,\"y\"\"".toList ++
        [0xC3, 0x28] ++ Csv.encodeText "\"\n6".toList
    load bytes .complete = .error (.table (.invalidText 2 ⟨3, 42⟩ 2 2)) ∧
      (∃ samples, load (bytes.take 42) .complete = .ok samples ∧ samples.length = 1) ∧
      (∃ found, (Csv.recordsFrom bytes ⟨3, 42⟩).head? = some found ∧
        IsFirstFault found.fields 2 2) ∧
      ∀ record ∈ recordsOf (bytes.take 42) .complete, ∀ field ∈ record.fields,
        field.IsValidUTF8 := by
  intro bytes
  have hload : load bytes .complete = .error (.table (.invalidText 2 ⟨3, 42⟩ 2 2)) := by
    decide +kernel
  obtain ⟨_, hrows, _, hfault⟩ := (invalidText_points bytes .complete).1 _ _ _ _ hload
  obtain ⟨samples, hsamples, hlength⟩ := hrows 1 rfl
  exact ⟨hload, ⟨samples, hsamples, hlength⟩, hfault,
    (invalidText_points (bytes.take 42) .complete).2 samples hsamples⟩

end RehashChart.Benchmark
