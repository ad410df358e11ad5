import RehashChart.Proofs.Benchmark.Loading
import RehashChart.Proofs.Results

/-! # The first fault of a table

What an error of each step of loading says about the records. Errors about what is in the records
are told from the one about an input that breaks off.
-/

namespace RehashChart.Benchmark

/-! ## Records in a row -/

def columnsOf (header : Csv.Record) : Except LoadError Columns := do
  let names ← decodeRecord 0 header
  Columns.ofHeader names

def readToEnd (columns : Columns) (ending : Ending) (first : Nat) (records : List Csv.Record) :
    Except LoadError (List Sample) := do
  let samples ← readFrom columns first records
  ending.judge
  return samples

theorem loadRecords_cons (ending : Ending) (header : Csv.Record) (rows : List Csv.Record) :
    loadRecords ending (header :: rows) =
      columnsOf header >>= fun columns => readToEnd columns ending 1 rows := by
  rw [loadRecords, columnsOf]
  cases decodeRecord 0 header <;> rfl

theorem readToEnd_complete (columns : Columns) (first : Nat) (records : List Csv.Record) :
    readToEnd columns .complete first records = readFrom columns first records :=
  bind_pure (readFrom columns first records)

theorem readFrom_append (columns : Columns) (first : Nat) (a b : List Csv.Record) :
    readFrom columns first (a ++ b) = (do
      let samples ← readFrom columns first a
      let more ← readFrom columns (first + a.length) b
      return samples ++ more) := by
  induction a generalizing first with
  | nil =>
      change readFrom columns first b = readFrom columns first b >>= pure
      rw [bind_pure]
  | cons record a ih =>
      have hfirst : first + 1 + a.length = first + (record :: a).length := by
        rw [List.length_cons]
        omega
      rw [List.cons_append, readFrom_cons, readFrom_cons, ih, hfirst]
      simp only [bind_assoc, pure_bind, List.cons_append]

theorem readToEnd_append (columns : Columns) (ending : Ending) (first : Nat)
    (a b : List Csv.Record) :
    readToEnd columns ending first (a ++ b) = (do
      let samples ← readFrom columns first a
      let more ← readToEnd columns ending (first + a.length) b
      return samples ++ more) := by
  simp only [readToEnd, readFrom_append, bind_assoc, pure_bind]

theorem length_of_readFrom {columns : Columns} {first : Nat} {records : List Csv.Record}
    {samples : List Sample} (h : readFrom columns first records = .ok samples) :
    samples.length = records.length := by
  induction records generalizing first samples with
  | nil =>
      cases h
      rfl
  | cons record records ih =>
      rw [readFrom_cons] at h
      obtain ⟨sample, _, h⟩ := bind_eq_ok.mp h
      obtain ⟨more, hmore, h⟩ := bind_eq_ok.mp h
      cases h
      rw [List.length_cons, List.length_cons, ih hmore]

/-! ## Steps that fail -/

theorem decodeFields_cons (record : Nat) (start : Csv.Position) (i : Nat) (field : Csv.Field)
    (fields : List Csv.Field) :
    decodeFields record start i (field :: fields) = (do
      let text ← (Text.decode field).mapError (.invalidText record start i)
      let texts ← decodeFields record start (i + 1) fields
      return text :: texts) := by
  rw [decodeFields]
  cases Text.decode field with
  | error validUpTo => rfl
  | ok text => cases decodeFields record start (i + 1) fields <;> rfl

theorem decodeFields_eq_error {record : Nat} {start : Csv.Position} {i : Nat}
    {fields : List Csv.Field} {e : TableError} (h : decodeFields record start i fields = .error e) :
    ∃ before field after validUpTo, fields = before ++ field :: after ∧
      (∀ other ∈ before, ∃ text, Text.decode other = .ok text) ∧
        Text.decode field = .error validUpTo ∧
          e = .invalidText record start (i + before.length) validUpTo := by
  induction fields generalizing i with
  | nil => cases h
  | cons field fields ih =>
      rw [decodeFields_cons] at h
      rcases bind_eq_error.mp h with h | ⟨text, htext, h⟩
      · obtain ⟨validUpTo, hfield, rfl⟩ := mapError_eq_error.mp h
        exact ⟨[], field, fields, validUpTo, rfl, by simp, hfield, rfl⟩
      rcases bind_eq_error.mp h with h | ⟨_, _, h⟩
      · obtain ⟨before, bad, after, validUpTo, rfl, hbefore, hbad, rfl⟩ := ih h
        refine ⟨field :: before, bad, after, validUpTo, rfl, ?_, hbad, ?_⟩
        · intro other hother
          rcases List.mem_cons.mp hother with rfl | hother
          · exact ⟨text, mapError_eq_ok.mp htext⟩
          · exact hbefore other hother
        · rw [List.length_cons, Nat.add_assoc, Nat.add_comm 1]
      · cases h

theorem decodeFields_eq_ok {record : Nat} {start : Csv.Position} {i : Nat}
    {fields : List Csv.Field} {texts : List String}
    (h : decodeFields record start i fields = .ok texts) :
    ∀ field ∈ fields, ∃ text, Text.decode field = .ok text := by
  induction fields generalizing i texts with
  | nil => exact fun _ hfield => absurd hfield List.not_mem_nil
  | cons field fields ih =>
      rw [decodeFields_cons] at h
      obtain ⟨text, htext, h⟩ := bind_eq_ok.mp h
      obtain ⟨texts', hrest, _⟩ := bind_eq_ok.mp h
      intro other hother
      rcases List.mem_cons.mp hother with rfl | hother
      · exact ⟨text, mapError_eq_ok.mp htext⟩
      · exact ih hrest other hother

theorem columnIndex_eq_error {header : List String} {column : String} {e : LoadError}
    (h : columnIndex header column = .error e) : e = .missingColumn column := by
  unfold columnIndex at h
  split at h <;> cases h
  rfl

theorem ofHeader_eq_error {header : List String} {e : LoadError}
    (h : Columns.ofHeader header = .error e) : ∃ column, e = .missingColumn column := by
  rcases bind_eq_error.mp h with h | ⟨_, _, h⟩
  · exact ⟨_, columnIndex_eq_error h⟩
  rcases bind_eq_error.mp h with h | ⟨_, _, h⟩
  · exact ⟨_, columnIndex_eq_error h⟩
  · cases h

theorem readValue_eq_error {fields : List String} {index row : Nat} {column : String}
    {e : LoadError} (h : readValue fields index row column = .error e) :
    ∃ value, e = .invalidValue row column value := by
  cases hnumber : numberIn (fieldAt fields index) with
  | some n =>
      rw [readValue_of_some hnumber] at h
      cases h
  | none =>
      rw [readValue_of_none hnumber] at h
      cases h
      exact ⟨_, rfl⟩

/-- A row is not text, or one of its two values is no number. -/
theorem readRow_eq_error {columns : Columns} {record : Csv.Record} {row : Nat} {e : LoadError}
    (h : columns.readRow record row = .error e) :
    decodeRecord row record = .error e ∨ ∃ column value, e = .invalidValue row column value := by
  rcases bind_eq_error.mp h with h | ⟨_, _, h⟩
  · exact .inl h
  rcases bind_eq_error.mp h with h | ⟨_, _, h⟩
  · obtain ⟨value, rfl⟩ := readValue_eq_error h
    exact .inr ⟨_, value, rfl⟩
  rcases bind_eq_error.mp h with h | ⟨_, _, h⟩
  · obtain ⟨value, rfl⟩ := readValue_eq_error h
    exact .inr ⟨_, value, rfl⟩
  · cases h

theorem readFrom_eq_error {columns : Columns} {first : Nat} {records : List Csv.Record}
    {e : LoadError} (h : readFrom columns first records = .error e) :
    ∃ before record after samples, records = before ++ record :: after ∧
      readFrom columns first before = .ok samples ∧
        columns.readRow record (first + before.length) = .error e := by
  induction records generalizing first with
  | nil => cases h
  | cons record records ih =>
      rw [readFrom_cons] at h
      rcases bind_eq_error.mp h with h | ⟨sample, hrow, h⟩
      · exact ⟨[], record, records, [], rfl, rfl, h⟩
      rcases bind_eq_error.mp h with h | ⟨_, _, h⟩
      · obtain ⟨before, bad, after, samples, rfl, hbefore, hbad⟩ := ih h
        refine ⟨record :: before, bad, after, sample :: samples, rfl, ?_, ?_⟩
        · rw [readFrom_cons, hrow, hbefore]
          rfl
        · rw [List.length_cons, ← Nat.add_assoc, Nat.add_right_comm]
          exact hbad
      · cases h

/-! ## Errors by what they are about -/

/-- An error that is in the records, and not in how they are delivered. -/
inductive LoadError.IsOfContent : LoadError → Prop where
  | missingColumn (column : String) : IsOfContent (.missingColumn column)
  | invalidValue (row : Nat) (column value : String) : IsOfContent (.invalidValue row column value)
  | invalidText (record : Nat) (start : Csv.Position) (field validUpTo : Nat) :
      IsOfContent (.table (.invalidText record start field validUpTo))

theorem decodeRecord_isOfContent {index : Nat} {record : Csv.Record} {e : LoadError}
    (h : decodeRecord index record = .error e) : e.IsOfContent := by
  obtain ⟨cause, hcause, rfl⟩ := mapError_eq_error.mp h
  obtain ⟨_, _, _, _, _, _, _, rfl⟩ := decodeFields_eq_error hcause
  exact .invalidText _ _ _ _

theorem columnsOf_isOfContent {header : Csv.Record} {e : LoadError}
    (h : columnsOf header = .error e) : e.IsOfContent := by
  rcases bind_eq_error.mp h with h | ⟨_, _, h⟩
  · exact decodeRecord_isOfContent h
  · obtain ⟨column, rfl⟩ := ofHeader_eq_error h
    exact .missingColumn column

theorem readFrom_isOfContent {columns : Columns} {first : Nat} {records : List Csv.Record}
    {e : LoadError} (h : readFrom columns first records = .error e) : e.IsOfContent := by
  obtain ⟨_, _, _, _, _, _, hrow⟩ := readFrom_eq_error h
  rcases readRow_eq_error hrow with hrow | ⟨column, value, rfl⟩
  · exact decodeRecord_isOfContent hrow
  · exact .invalidValue _ column value

end RehashChart.Benchmark
