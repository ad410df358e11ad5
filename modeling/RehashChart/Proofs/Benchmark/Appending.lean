import RehashChart.Proofs.Benchmark.Faults
import RehashChart.Proofs.Csv.Boundaries

/-! # Loading an input that goes on

What is found in the complete records of an input is found whatever follows. Between two records an
input can be cut: a fault of the second part is the same fault in the whole, with its row counted
on.
-/

namespace RehashChart.Benchmark

/-! ## Records of a part -/

/-- The records of an input that ends where the reader is. -/
def Ending.recordsIn : Ending → Csv.Reader → List Csv.Record
  | .complete, r => r.all
  | .broken _, r => r.records.toList

theorem recordsOf_eq (bytes : List UInt8) (ending : Ending) :
    recordsOf bytes ending = ending.recordsIn (Csv.scan bytes) := by
  cases ending <;> rfl

theorem records_isPrefix_recordsIn (ending : Ending) (r : Csv.Reader) :
    r.records.toList <+: ending.recordsIn r := by
  cases ending with
  | complete => exact r.records_isPrefix_all
  | broken complaint => exact List.prefix_rfl

theorem recordsOf_isPrefix (bytes more : List UInt8) (complaint : String) (ending : Ending) :
    recordsOf bytes (.broken complaint) <+: recordsOf (bytes ++ more) ending := by
  change (Csv.scan bytes).records.toList <+: _
  by_cases h : (Csv.scan bytes).records = #[]
  · rw [h]
    exact List.nil_prefix
  · rw [recordsOf_eq, Csv.scan_append h]
    exact (Csv.Reader.records_isPrefix _ more).trans (records_isPrefix_recordsIn ending _)

/-! ## Inputs that break off -/

theorem exists_loadRecords_broken (complaint : String) (records : List Csv.Record) :
    ∃ e, loadRecords (.broken complaint) records = .error e := by
  cases hload : loadRecords (.broken complaint) records with
  | error e => exact ⟨e, rfl⟩
  | ok samples =>
      cases records with
      | nil => cases hload
      | cons header rows =>
          rw [loadRecords_cons] at hload
          obtain ⟨_, _, hload⟩ := bind_eq_ok.mp hload
          obtain ⟨_, _, hload⟩ := bind_eq_ok.mp hload
          cases hload

/-- An error other than the break is in the records, and further records do not matter. -/
theorem loadRecords_append {complaint : String} {records : List Csv.Record} {e : LoadError}
    (h : loadRecords (.broken complaint) records = .error e)
    (hne : e ≠ .table (.broken complaint)) :
    e.IsOfContent ∧ ∀ ending more, loadRecords ending (records ++ more) = .error e := by
  cases records with
  | nil =>
      cases h
      exact absurd rfl hne
  | cons header rows =>
      rw [loadRecords_cons] at h
      rcases bind_eq_error.mp h with h | ⟨columns, hcolumns, h⟩
      · refine ⟨columnsOf_isOfContent h, fun ending more => ?_⟩
        rw [List.cons_append, loadRecords_cons, h, error_bind]
      rcases bind_eq_error.mp h with h | ⟨samples, _, h⟩
      · refine ⟨readFrom_isOfContent h, fun ending more => ?_⟩
        rw [List.cons_append, loadRecords_cons, hcolumns, ok_bind, readToEnd_append, h,
          error_bind]
      · cases h
        exact absurd rfl hne

/-- An input that breaks off is never loaded. If the error is another one than the break, then it
is in the records, and every input that begins with the same bytes leads to it. -/
theorem load_broken_or_settled (bytes : List UInt8) (complaint : String) :
    ∃ e, load bytes (.broken complaint) = .error e ∧
      (e ≠ .table (.broken complaint) →
        e.IsOfContent ∧ ∀ more ending, load (bytes ++ more) ending = .error e) := by
  obtain ⟨e, he⟩ := exists_loadRecords_broken complaint (recordsOf bytes (.broken complaint))
  refine ⟨e, he, fun hne => ?_⟩
  obtain ⟨hcontent, happend⟩ := loadRecords_append he hne
  refine ⟨hcontent, fun more ending => ?_⟩
  obtain ⟨rest, hrest⟩ := recordsOf_isPrefix bytes more complaint ending
  rw [load, ← hrest]
  exact happend ending rest

/-- A value that is no number is found before the break in the middle of the next record. -/
theorem load_broken_after_word :
    let bytes := Csv.encodeText "insert size,rehash rounds\nmany,1\n12,\"3".toList
    let e := LoadError.invalidValue 1 "insert size" "many"
    load bytes (.broken "reader failed") = .error e ∧ e ≠ .table (.broken "reader failed") ∧
      load (bytes ++ [0xFF]) .complete = .error e := by
  intro bytes e
  have hload : load bytes (.broken "reader failed") = .error e := by decide +kernel
  obtain ⟨e', he', hsettled⟩ := load_broken_or_settled bytes "reader failed"
  cases hload.symm.trans he'
  have hne : e ≠ .table (.broken "reader failed") := by simp [e]
  exact ⟨hload, hne, (hsettled hne).2 [0xFF] .complete⟩

/-! ## Inputs in two parts -/

/-- The fields of the records that are read from a phase on. -/
def Ending.fieldsIn (ending : Ending) (p : Csv.Phase) (bytes : List UInt8) :
    List (List Csv.Field) :=
  match ending with
  | .complete => p.reads bytes
  | .broken _ => (p.run bytes).2

/-- What a reader reads next depends on its phase, but for the places of the records. -/
theorem exists_recordsIn_feedAll (ending : Ending) (r : Csv.Reader) (bytes : List UInt8) :
    ∃ new, ending.recordsIn (r.feedAll bytes) = r.records.toList ++ new ∧
      new.map (·.fields) = ending.fieldsIn r.phase bytes := by
  obtain ⟨new, hnew⟩ :=
    (r.records_isPrefix bytes).trans (records_isPrefix_recordsIn ending (r.feedAll bytes))
  refine ⟨new, hnew.symm, ?_⟩
  have hfields : (ending.recordsIn (r.feedAll bytes)).map (·.fields) =
      r.records.toList.map (·.fields) ++ ending.fieldsIn r.phase bytes := by
    cases ending with
    | complete => exact r.map_fields_feedAll bytes
    | broken complaint => exact (r.feedAll_run bytes).2
  rw [← hnew, List.map_append] at hfields
  exact List.append_cancel_left hfields

/-- The same error, `k` rows further down. -/
inductive LoadError.IsMoved (k : Nat) : LoadError → LoadError → Prop where
  | invalidValue (row : Nat) (column value : String) :
      IsMoved k (.invalidValue row column value) (.invalidValue (row + k) column value)
  | invalidText (record : Nat) (start start' : Csv.Position) (field validUpTo : Nat) :
      IsMoved k (.table (.invalidText record start field validUpTo))
        (.table (.invalidText (record + k) start' field validUpTo))
  | broken (complaint : String) :
      IsMoved k (.table (.broken complaint)) (.table (.broken complaint))

/-- The same result, or the same error `k` rows further down. -/
inductive Follows {α : Type} (k : Nat) : Except LoadError α → Except LoadError α → Prop where
  | ok (value : α) : Follows k (.ok value) (.ok value)
  | error {e e' : LoadError} : e.IsMoved k e' → Follows k (.error e) (.error e')

theorem Follows.bind {α β : Type} {k : Nat} {x x' : Except LoadError α}
    {next next' : α → Except LoadError β} (h : Follows k x x')
    (hnext : ∀ value, Follows k (next value) (next' value)) :
    Follows k (x >>= next) (x' >>= next') := by
  cases h with
  | ok value => exact hnext value
  | error hmoved => exact .error hmoved

theorem decodeFields_follows (index k i : Nat) (start start' : Csv.Position)
    (fields : List Csv.Field) :
    Follows k ((decodeFields index start i fields).mapError .table)
      ((decodeFields (index + k) start' i fields).mapError .table) := by
  induction fields generalizing i with
  | nil => exact .ok []
  | cons field fields ih =>
      simp only [decodeFields_cons, bind_mapError]
      refine Follows.bind ?_ fun _ => (ih (i + 1)).bind fun _ => .ok _
      cases Text.decode field with
      | error validUpTo => exact .error (.invalidText index start start' i validUpTo)
      | ok text => exact .ok text

theorem decodeRecord_follows {record record' : Csv.Record} (h : record'.fields = record.fields)
    (index k : Nat) : Follows k (decodeRecord index record) (decodeRecord (index + k) record') := by
  unfold decodeRecord
  rw [h]
  exact decodeFields_follows index k 0 record.start record'.start record.fields

theorem readValue_follows (fields : List String) (index row k : Nat) (column : String) :
    Follows k (readValue fields index row column) (readValue fields index (row + k) column) := by
  unfold readValue
  dsimp only
  split
  · exact .ok _
  · exact .error (.invalidValue row column _)

theorem readRow_follows (columns : Columns) {record record' : Csv.Record}
    (h : record'.fields = record.fields) (row k : Nat) :
    Follows k (columns.readRow record row) (columns.readRow record' (row + k)) :=
  (decodeRecord_follows h row k).bind fun fields =>
    (readValue_follows fields columns.insertSize row k insertSizeColumn).bind fun _ =>
      (readValue_follows fields columns.rehashRounds row k rehashRoundsColumn).bind fun _ => .ok _

theorem readFrom_follows (columns : Columns) {records records' : List Csv.Record}
    (h : records'.map (·.fields) = records.map (·.fields)) (first k : Nat) :
    Follows k (readFrom columns first records) (readFrom columns (first + k) records') := by
  induction records generalizing records' first with
  | nil =>
      rw [List.map_eq_nil_iff.mp h]
      exact .ok []
  | cons record records ih =>
      obtain ⟨record', rest, rfl, hrecord, hrest⟩ := List.map_eq_cons_iff.mp h
      rw [readFrom_cons, readFrom_cons, Nat.add_right_comm]
      exact (readRow_follows columns hrecord first k).bind fun _ =>
        (ih hrest (first + 1)).bind fun _ => .ok _

theorem readToEnd_follows (columns : Columns) (ending : Ending) {records records' : List Csv.Record}
    (h : records'.map (·.fields) = records.map (·.fields)) (first k : Nat) :
    Follows k (readToEnd columns ending first records)
      (readToEnd columns ending (first + k) records') := by
  refine (readFrom_follows columns h first k).bind fun samples => ?_
  cases ending with
  | complete => exact .ok samples
  | broken complaint => exact .error (.broken complaint)

/-- An input can be cut between two records, if its header is before the cut. A fault of the first
part is the fault of the whole; else the rows of the whole are those of the header with the first
part and then those of the header with the second, and a fault of the latter is the whole's, as many
rows further down as the first part has. -/
theorem load_append (header a b : List UInt8) (ending : Ending)
    (hone : (Csv.scan header).records.size = 1) (hheader : (Csv.scan header).phase = .outside)
    (hcut : (Csv.scan (header ++ a)).phase = .outside) :
    (∀ e, load (header ++ a) .complete = .error e → load (header ++ a ++ b) ending = .error e) ∧
      ∀ samples, load (header ++ a) .complete = .ok samples →
        (∀ more, load (header ++ b) ending = .ok more →
          load (header ++ a ++ b) ending = .ok (samples ++ more)) ∧
        ∀ e, load (header ++ b) ending = .error e →
          ∃ e', load (header ++ a ++ b) ending = .error e' ∧ e.IsMoved samples.length e' := by
  -- what each part adds to the records is told from its bytes, as the reader is outside before it
  obtain ⟨first, hfirst⟩ := Array.size_eq_one_iff.mp hone
  have hscan := fun bytes => Csv.scan_append (a := header) (by simp [hfirst]) bytes
  rw [hscan] at hcut
  obtain ⟨rows, hrows, -⟩ := exists_recordsIn_feedAll .complete (Csv.scan header) a
  obtain ⟨more, hmore, hfields⟩ := exists_recordsIn_feedAll ending (Csv.scan header) b
  obtain ⟨more', hmore', hfields'⟩ :=
    exists_recordsIn_feedAll ending ((Csv.scan header).feedAll a) b
  rw [hcut, ← hheader, ← hfields] at hfields'
  have hall : ((Csv.scan header).feedAll a).all = first :: rows := by
    rw [hfirst] at hrows
    exact hrows
  have hpart : recordsOf (header ++ a) .complete = first :: rows := by
    rw [← hall, ← hscan]
    rfl
  have hrest : recordsOf (header ++ b) ending = first :: more := by
    rw [recordsOf_eq, hscan, hmore, hfirst]
    rfl
  have hwhole : recordsOf (header ++ a ++ b) ending = first :: (rows ++ more') := by
    rw [recordsOf_eq, List.append_assoc, hscan, Csv.Reader.feedAll_append, hmore',
      ← Csv.Reader.all_of_outside hcut, hall]
    rfl
  simp only [load, hpart, hrest, hwhole, loadRecords_cons]
  cases columnsOf first with
  | error e => exact ⟨fun _ h => h, fun _ h => nomatch h⟩
  | ok columns =>
      simp only [ok_bind, readToEnd_complete, readToEnd_append]
      cases hread : readFrom columns 1 rows with
      | error e => exact ⟨fun _ h => h, fun _ h => nomatch h⟩
      | ok samples =>
          have hfollows := readToEnd_follows columns ending hfields' 1 rows.length
          refine ⟨fun _ h => (nomatch h), ?_⟩
          rintro _ ⟨⟩
          rw [← length_of_readFrom hread] at hfollows ⊢
          generalize readToEnd columns ending 1 more = x at hfollows ⊢
          generalize readToEnd columns ending (1 + samples.length) more' = x' at hfollows ⊢
          cases hfollows with
          | ok new =>
              refine ⟨?_, fun _ h => nomatch h⟩
              rintro _ ⟨⟩
              rfl
          | @error e e' hmoved =>
              refine ⟨fun _ h => (nomatch h), ?_⟩
              rintro _ ⟨⟩
              exact ⟨e', rfl, hmoved⟩

/-- A cut in the middle of a line end, after two rows; the fault is in the second row beyond it. -/
theorem load_append_at_lineEnd :
    let header := Csv.encodeText "insert size,rehash rounds\r".toList
    let a := Csv.encodeText "\n\n5,1\n\"7\",2\r".toList
    let b := Csv.encodeText "\n8,3\nx\"".toList
    (Csv.scan header).records.size = 1 ∧ (Csv.scan header).phase = .outside ∧
      (Csv.scan (header ++ a)).phase = .outside ∧
      load (header ++ a) .complete = .ok [⟨5, 1⟩, ⟨7, 2⟩] ∧
      load (header ++ b) .complete = .error (.invalidValue 2 "insert size" "x\"") ∧
      load (header ++ a ++ b) .complete = .error (.invalidValue 4 "insert size" "x\"") := by
  intro header a b
  have hone : (Csv.scan header).records.size = 1 := by decide +kernel
  have hheader : (Csv.scan header).phase = .outside := rfl
  have hcut : (Csv.scan (header ++ a)).phase = .outside := rfl
  have hpart : load (header ++ a) .complete = .ok [⟨5, 1⟩, ⟨7, 2⟩] := by decide +kernel
  have hrest : load (header ++ b) .complete = .error (.invalidValue 2 "insert size" "x\"") := by
    decide +kernel
  obtain ⟨e, he, hmoved⟩ :=
    ((load_append header a b .complete hone hheader hcut).2 _ hpart).2 _ hrest
  cases hmoved
  exact ⟨hone, hheader, hcut, hpart, hrest, he⟩

end RehashChart.Benchmark
