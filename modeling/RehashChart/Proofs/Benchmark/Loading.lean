import Mathlib.Data.List.Forall2
import RehashChart.Benchmark.Load
import RehashChart.Proofs.Csv.Reading

/-! # What a written table loads as

The meaning of a table of texts, stated without bytes, records or positions, and the theorem that
every way of writing the table loads as that meaning.
-/

namespace RehashChart.Benchmark

open Csv (WrittenBytes WrittenRecords fieldOf)

structure Table where
  header : List String
  rows : List (List String)

/-- The bytes are one of the ways to write a table. -/
def Table.IsWrittenAs (t : Table) (bytes : List UInt8) : Prop :=
  WrittenBytes (t.header :: t.rows) bytes

/-! ## Meaning -/

def TrimsTo (name column : String) : Prop := Text.trim name.toList = column.toList

def IsFirstColumn (header : List String) (column : String) (i : Nat) : Prop :=
  ∃ h : i < header.length, TrimsTo header[i] column ∧ ∀ j (_ : j < i), ¬TrimsTo header[j] column

def fieldAt (row : List String) (i : Nat) : String := row[i]?.getD ""

def numberIn (text : String) : Option UInt64 :=
  (Text.readNat64 (Text.trim text.toList)).map UInt64.ofNat

/-- A row whose two tracked fields hold the numbers of a run. -/
def Reads (size rounds : Nat) (row : List String) (sample : Sample) : Prop :=
  numberIn (fieldAt row size) = some sample.insertSize ∧
    numberIn (fieldAt row rounds) = some sample.rehashRounds

/-- What is wrong with the row of the given number: its size or, if that is a number, its rounds. -/
inductive IsFault (size rounds number : Nat) (row : List String) : LoadError → Prop where
  | size : numberIn (fieldAt row size) = none →
      IsFault size rounds number row (.invalidValue number insertSizeColumn (fieldAt row size))
  | rounds {n : UInt64} :
      numberIn (fieldAt row size) = some n → numberIn (fieldAt row rounds) = none →
        IsFault size rounds number row
          (.invalidValue number rehashRoundsColumn (fieldAt row rounds))

/-- What a table means: the runs in its rows, in order, or its first fault. -/
inductive Table.Means (t : Table) : Except LoadError (List Sample) → Prop where
  | noSize : (∀ name ∈ t.header, ¬TrimsTo name insertSizeColumn) →
      Means t (.error (.missingColumn insertSizeColumn))
  | noRounds : (∃ name ∈ t.header, TrimsTo name insertSizeColumn) →
      (∀ name ∈ t.header, ¬TrimsTo name rehashRoundsColumn) →
        Means t (.error (.missingColumn rehashRoundsColumn))
  | fault {size rounds : Nat} {before after : List (List String)} {row : List String}
      {samples : List Sample} {error : LoadError} :
      IsFirstColumn t.header insertSizeColumn size →
        IsFirstColumn t.header rehashRoundsColumn rounds → t.rows = before ++ row :: after →
          List.Forall₂ (Reads size rounds) before samples →
            IsFault size rounds (before.length + 1) row error → Means t (.error error)
  | runs {size rounds : Nat} {samples : List Sample} :
      IsFirstColumn t.header insertSizeColumn size →
        IsFirstColumn t.header rehashRoundsColumn rounds →
          List.Forall₂ (Reads size rounds) t.rows samples → Means t (.ok samples)

/-! ## Columns -/

theorem findIdx?_eq_some_iff {header : List String} {column : String} {i : Nat} :
    header.findIdx? (fun name => Text.trim name.toList = column.toList) = some i ↔
      IsFirstColumn header column i := by
  rw [List.findIdx?_eq_some_iff_getElem]
  simp [IsFirstColumn, TrimsTo]

theorem findIdx?_eq_none_iff {header : List String} {column : String} :
    header.findIdx? (fun name => Text.trim name.toList = column.toList) = none ↔
      ∀ name ∈ header, ¬TrimsTo name column := by
  rw [List.findIdx?_eq_none_iff]
  simp [TrimsTo]

theorem exists_isFirstColumn {header : List String} {column : String}
    (h : ∃ name ∈ header, TrimsTo name column) : ∃ i, IsFirstColumn header column i := by
  cases hfind : header.findIdx? (fun name => Text.trim name.toList = column.toList) with
  | none =>
      obtain ⟨name, hname, htrims⟩ := h
      exact absurd htrims (findIdx?_eq_none_iff.mp hfind name hname)
  | some i => exact ⟨i, findIdx?_eq_some_iff.mp hfind⟩

theorem columnIndex_of_first {header : List String} {column : String} {i : Nat}
    (h : IsFirstColumn header column i) : columnIndex header column = .ok i := by
  rw [columnIndex, findIdx?_eq_some_iff.mpr h]

theorem columnIndex_of_missing {header : List String} {column : String}
    (h : ∀ name ∈ header, ¬TrimsTo name column) :
    columnIndex header column = .error (.missingColumn column) := by
  rw [columnIndex, findIdx?_eq_none_iff.mpr h]

/-! ## Rows -/

theorem decode_fieldOf (text : String) : Text.decode (fieldOf text) = .ok text := by
  have htext : String.fromUTF8? (fieldOf text) = some text := by
    simp [String.fromUTF8?, fieldOf, text.isValidUTF8]
    rfl
  rw [Text.decode, htext]

theorem decodeFields_map (record : Nat) (start : Csv.Position) (i : Nat) (texts : List String) :
    decodeFields record start i (texts.map fieldOf) = .ok texts := by
  induction texts generalizing i with
  | nil => rfl
  | cons text texts ih =>
      rw [List.map_cons, decodeFields, decode_fieldOf]
      dsimp only
      rw [ih]
      rfl

theorem decodeRecord_of_fields {record : Csv.Record} {texts : List String}
    (h : record.fields = texts.map fieldOf) (index : Nat) :
    decodeRecord index record = .ok texts := by
  rw [decodeRecord, h, decodeFields_map]
  rfl

theorem readValue_of_some {row : List String} {i number : Nat} {column : String} {n : UInt64}
    (h : numberIn (fieldAt row i) = some n) : readValue row i number column = .ok n := by
  obtain ⟨k, hk, rfl⟩ := Option.map_eq_some_iff.mp h
  unfold fieldAt at hk
  simp [readValue, hk]

theorem readValue_of_none {row : List String} {i number : Nat} {column : String}
    (h : numberIn (fieldAt row i) = none) :
    readValue row i number column = .error (.invalidValue number column (fieldAt row i)) := by
  have hk := Option.map_eq_none_iff.mp h
  unfold fieldAt at hk
  simp [readValue, hk, fieldAt]

theorem readRow_of_reads {size rounds number : Nat} {record : Csv.Record} {row : List String}
    {sample : Sample} (hrecord : record.fields = row.map fieldOf)
    (h : Reads size rounds row sample) : Columns.readRow ⟨size, rounds⟩ record number = .ok sample := by
  obtain ⟨hsize, hrounds⟩ := h
  rw [Columns.readRow, decodeRecord_of_fields hrecord]
  dsimp only [bind, Except.bind]
  rw [readValue_of_some hsize]
  dsimp only
  rw [readValue_of_some hrounds]
  rfl

theorem readRow_of_fault {size rounds number : Nat} {record : Csv.Record} {row : List String}
    {error : LoadError} (hrecord : record.fields = row.map fieldOf)
    (h : IsFault size rounds number row error) :
    Columns.readRow ⟨size, rounds⟩ record number = .error error := by
  rw [Columns.readRow, decodeRecord_of_fields hrecord]
  dsimp only [bind, Except.bind]
  cases h with
  | size hsize => rw [readValue_of_none hsize]
  | rounds hsize hrounds =>
      rw [readValue_of_some hsize]
      dsimp only
      rw [readValue_of_none hrounds]

def readFrom (columns : Columns) (first : Nat) (records : List Csv.Record) :
    Except LoadError (List Sample) :=
  (records.zipIdx first).mapM fun (record, row) => columns.readRow record row

theorem readFrom_cons (columns : Columns) (first : Nat) (record : Csv.Record)
    (records : List Csv.Record) :
    readFrom columns first (record :: records) = (do
      let sample ← columns.readRow record first
      let samples ← readFrom columns (first + 1) records
      return sample :: samples) := by
  simp [readFrom, List.zipIdx_cons]

theorem readFrom_of_reads {size rounds : Nat} {rows : List (List String)} {samples : List Sample}
    (h : List.Forall₂ (Reads size rounds) rows samples) (first : Nat) {records : List Csv.Record}
    (hrecords : records.map (·.fields) = rows.map (·.map fieldOf)) :
    readFrom ⟨size, rounds⟩ first records = .ok samples := by
  induction h generalizing first records with
  | nil =>
      rw [List.map_nil, List.map_eq_nil_iff] at hrecords
      rw [hrecords]
      rfl
  | cons hrow _ ih =>
      obtain ⟨record, rest, rfl, hrecord, hrest⟩ := List.map_eq_cons_iff.mp hrecords
      rw [readFrom_cons, readRow_of_reads hrecord hrow, ih (first + 1) hrest]
      rfl

theorem readFrom_of_fault {size rounds : Nat} {before after : List (List String)}
    {row : List String} {samples : List Sample} {error : LoadError}
    (h : List.Forall₂ (Reads size rounds) before samples) (first : Nat)
    (hfault : IsFault size rounds (before.length + first) row error) {records : List Csv.Record}
    (hrecords : records.map (·.fields) = (before ++ row :: after).map (·.map fieldOf)) :
    readFrom ⟨size, rounds⟩ first records = .error error := by
  induction h generalizing first records with
  | nil =>
      obtain ⟨record, rest, rfl, hrecord, _⟩ := List.map_eq_cons_iff.mp hrecords
      rw [List.length_nil, Nat.zero_add] at hfault
      rw [readFrom_cons, readRow_of_fault hrecord hfault]
      rfl
  | cons hrow _ ih =>
      obtain ⟨record, rest, rfl, hrecord, hrest⟩ := List.map_eq_cons_iff.mp hrecords
      rw [List.length_cons, Nat.add_right_comm, Nat.add_assoc] at hfault
      rw [readFrom_cons, readRow_of_reads hrecord hrow, ih (first + 1) hfault hrest]
      rfl

/-- Rows can all be read, or there is a first one that cannot. -/
theorem reads_or_fault (size rounds first : Nat) (rows : List (List String)) :
    (∃ samples, List.Forall₂ (Reads size rounds) rows samples) ∨
      ∃ before row after samples error, rows = before ++ row :: after ∧
        List.Forall₂ (Reads size rounds) before samples ∧
          IsFault size rounds (before.length + first) row error := by
  -- a row is at fault, or it can be read and the rows after it decide
  induction rows generalizing first with
  | nil => exact .inl ⟨[], .nil⟩
  | cons row rows ih =>
      cases hsize : numberIn (fieldAt row size) with
      | none => exact .inr ⟨[], row, rows, [], _, rfl, .nil, .size hsize⟩
      | some n =>
          cases hrounds : numberIn (fieldAt row rounds) with
          | none => exact .inr ⟨[], row, rows, [], _, rfl, .nil, .rounds hsize hrounds⟩
          | some k =>
              have hrow : Reads size rounds row ⟨n, k⟩ := ⟨hsize, hrounds⟩
              rcases ih (first + 1) with ⟨samples, hall⟩ | ⟨before, bad, after, samples, error,
                heq, hbefore, hfault⟩
              · exact .inl ⟨_, .cons hrow hall⟩
              · refine .inr ⟨row :: before, bad, after, _, error, by rw [heq]; rfl,
                  .cons hrow hbefore, ?_⟩
                rw [List.length_cons, Nat.add_assoc, Nat.add_comm 1]
                exact hfault

theorem Table.exists_means (t : Table) : ∃ result, t.Means result := by
  by_cases hsize : ∃ name ∈ t.header, TrimsTo name insertSizeColumn
  · by_cases hrounds : ∃ name ∈ t.header, TrimsTo name rehashRoundsColumn
    · obtain ⟨size, hfirstSize⟩ := exists_isFirstColumn hsize
      obtain ⟨rounds, hfirstRounds⟩ := exists_isFirstColumn hrounds
      rcases reads_or_fault size rounds 1 t.rows with ⟨samples, hall⟩ | ⟨before, row, after,
        samples, error, heq, hbefore, hfault⟩
      · exact ⟨_, .runs hfirstSize hfirstRounds hall⟩
      · exact ⟨_, .fault hfirstSize hfirstRounds heq hbefore hfault⟩
    · exact ⟨_, .noRounds hsize fun name hname h => hrounds ⟨name, hname, h⟩⟩
  · exact ⟨_, .noSize fun name hname h => hsize ⟨name, hname, h⟩⟩

/-! ## Loading -/

/-- The fields of a reader's records, with the one that is unfinished at the end. -/
theorem fields_of_reader {records : List (List String)} {text : List Char}
    (h : WrittenRecords records text) (here : Csv.Position) :
    (Csv.Reader.feedAll ⟨#[], .outside, .origin, here⟩ (Csv.encodeText text)).all.map (·.fields) =
      records.map (·.map fieldOf) := by
  rw [Csv.Reader.map_fields_feedAll, h.reads]
  rfl

theorem fields_recordsOf {records : List (List String)} {bytes : List UInt8}
    (h : WrittenBytes records bytes) :
    (recordsOf bytes .complete).map (·.fields) = records.map (·.map fieldOf) := by
  cases h with
  | marked written => exact fields_of_reader written ⟨1, 3⟩
  | unmarked written hmark =>
      rw [recordsOf, Csv.scan_of_unmarked hmark]
      exact fields_of_reader written .origin

theorem loadRecords_of_means {t : Table} {result : Except LoadError (List Sample)}
    (h : t.Means result) {records : List Csv.Record}
    (hrecords : records.map (·.fields) = (t.header :: t.rows).map (·.map fieldOf)) :
    loadRecords .complete records = result := by
  obtain ⟨header, rows, rfl, hheader, hrows⟩ := List.map_eq_cons_iff.mp hrecords
  rw [loadRecords, decodeRecord_of_fields hheader]
  dsimp only [bind, Except.bind]
  cases h with
  | noSize hsize =>
      rw [Columns.ofHeader, columnIndex_of_missing hsize]
      rfl
  | noRounds hsize hrounds =>
      obtain ⟨size, hfirst⟩ := exists_isFirstColumn hsize
      rw [Columns.ofHeader, columnIndex_of_first hfirst, columnIndex_of_missing hrounds]
      rfl
  | fault hsize hrounds heq hbefore hfault =>
      rw [Columns.ofHeader, columnIndex_of_first hsize, columnIndex_of_first hrounds]
      rw [heq] at hrows
      dsimp only [bind, Except.bind, pure, Except.pure]
      rw [show Columns.readRows _ rows = readFrom _ 1 rows from rfl,
        readFrom_of_fault hbefore 1 hfault hrows]
  | runs hsize hrounds hall =>
      rw [Columns.ofHeader, columnIndex_of_first hsize, columnIndex_of_first hrounds]
      dsimp only [bind, Except.bind, pure, Except.pure]
      rw [show Columns.readRows _ rows = readFrom _ 1 rows from rfl,
        readFrom_of_reads hall 1 hrows]
      rfl

/-- Every way of writing a table loads as what the table means, and as nothing else. -/
theorem load_eq_iff_means {t : Table} {bytes : List UInt8} (h : t.IsWrittenAs bytes)
    (result : Except LoadError (List Sample)) :
    load bytes .complete = result ↔ t.Means result := by
  have hrecords := fields_recordsOf h
  constructor
  · intro hload
    obtain ⟨other, hmeans⟩ := t.exists_means
    have hother : load bytes .complete = other := loadRecords_of_means hmeans hrecords
    rw [← hload, hother]
    exact hmeans
  · intro hmeans
    exact loadRecords_of_means hmeans hrecords

/-- A mark, blank lines, quotes, every line end, extra columns, a doubled name and ragged rows. -/
theorem load_mixed_table :
    let t : Table := ⟨["a \"b\",\n", " insert size ", "rehash rounds", "insert size"],
      [["", "007", "+2"], ["é", "12", "3 ", "9", ""]]⟩
    let bytes := Csv.byteOrderMark ++ Csv.encodeText
      "\n\"a \"\"b\"\",\n\", insert size ,\"rehash rounds\",insert size\r\n\r\r\n,007,+2\ré,12,3 ,9,".toList
    t.IsWrittenAs bytes ∧ load bytes .complete = .ok [⟨7, 2⟩, ⟨12, 3⟩] := by
  intro t bytes
  have hbare : ∀ text : String, (text.toList.all fun c => !Csv.isSeparator c) = true →
      text.toList.head? ≠ some '"' → Csv.WrittenField text text.toList := by
    intro text hplain hunquoted
    refine .bare (fun c hc => ?_) hunquoted
    simpa using List.all_eq_true.mp hplain c hc
  have hheader : Csv.WrittenRecord t.header
      "\"a \"\"b\"\",\n\", insert size ,\"rehash rounds\",insert size".toList :=
    ⟨.more .quoted (.more (hbare " insert size " (by decide) (by decide)) (.more .quoted
      (.last (hbare "insert size" (by decide) (by decide))))), by decide⟩
  have hfirst : Csv.WrittenRecord ["", "007", "+2"] ",007,+2".toList :=
    ⟨.more (hbare "" (by decide) (by decide)) (.more (hbare "007" (by decide) (by decide))
      (.last (hbare "+2" (by decide) (by decide)))), by decide⟩
  have hsecond : Csv.WrittenRecord ["é", "12", "3 ", "9", ""] "é,12,3 ,9,".toList :=
    ⟨.more (hbare "é" (by decide) (by decide)) (.more (hbare "12" (by decide) (by decide))
      (.more (hbare "3 " (by decide) (by decide)) (.more (hbare "9" (by decide) (by decide))
        (.last (hbare "" (by decide) (by decide)))))), by decide⟩
  have hwritten : t.IsWrittenAs bytes :=
    .marked (.more (.more .lineFeed .none) hheader .both
      (.more (.more .carriageReturn (.more .both .none)) hfirst .carriageReturn
        (.last .none hsecond)))
  have hsize : IsFirstColumn t.header insertSizeColumn 1 := findIdx?_eq_some_iff.mp (by decide)
  have hrounds : IsFirstColumn t.header rehashRoundsColumn 2 :=
    findIdx?_eq_some_iff.mp (by decide)
  have hall : List.Forall₂ (Reads 1 2) t.rows [⟨7, 2⟩, ⟨12, 3⟩] :=
    .cons ⟨by decide, by decide⟩ (.cons ⟨by decide, by decide⟩ .nil)
  exact ⟨hwritten, (load_eq_iff_means hwritten _).mpr (.runs hsize hrounds hall)⟩

end RehashChart.Benchmark
