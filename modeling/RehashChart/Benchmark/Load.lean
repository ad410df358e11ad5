import RehashChart.Benchmark.Sample
import RehashChart.Csv.Reader
import RehashChart.Text.Blank
import RehashChart.Text.Digits
import RehashChart.Text.Utf8

/-! # Loading benchmark runs from a table

Records are judged one after the other, each in full before the next; the first fault found ends the
loading, whatever would have followed.
-/

namespace RehashChart.Benchmark

inductive TableError where
  /-- The input broke off with this complaint. -/
  | broken (complaint : String)
  /-- A field is not UTF-8; `validUpTo` of its bytes are. -/
  | invalidText (record : Nat) (start : Csv.Position) (field validUpTo : Nat)
  deriving DecidableEq

inductive LoadError where
  | notFound (path : String)
  | missingColumn (column : String)
  /-- The value of a tracked column is no number, or too large for one. -/
  | invalidValue (row : Nat) (column value : String)
  | table (error : TableError)
  deriving DecidableEq

def TableError.message : TableError → String
  | broken complaint => complaint
  | invalidText record start field validUpTo =>
      s!"CSV parse error: record {record} (line {start.line}, field: {field}, " ++
        s!"byte: {start.byte}): invalid utf-8: invalid UTF-8 in field {field} " ++
          s!"near byte index {validUpTo}"

def LoadError.message : LoadError → String
  | notFound path => s!"Input file not found: {path}"
  | missingColumn column =>
      s!"Required column '{column}' is not present in the CSV header"
  | invalidValue row column value => s!"Row {row}: column '{column}' has invalid value '{value}'"
  | table error => s!"Failed to read CSV record: {error.message}"

/-- How an input ends: at its last byte, or with a complaint of whoever delivers it. -/
inductive Ending where
  | complete
  | broken (complaint : String)

/-- The texts of a record's fields from the given place in it on. -/
def decodeFields (record : Nat) (start : Csv.Position) :
    Nat → List Csv.Field → Except TableError (List String)
  | _, [] => .ok []
  | i, field :: rest =>
      match Text.decode field with
      | .error validUpTo => .error (.invalidText record start i validUpTo)
      | .ok text => (decodeFields record start (i + 1) rest).map (text :: ·)

def decodeRecord (index : Nat) (record : Csv.Record) : Except LoadError (List String) :=
  (decodeFields index record.start 0 record.fields).mapError .table

def columnIndex (header : List String) (column : String) : Except LoadError Nat :=
  match header.findIdx? fun name => Text.trim name.toList = column.toList with
  | some i => .ok i
  | none => .error (.missingColumn column)

/-- The number in a field; a field that the record does not have is empty. -/
def readValue (fields : List String) (index row : Nat) (column : String) :
    Except LoadError UInt64 :=
  let value := fields[index]?.getD ""
  match Text.readNat64 (Text.trim value.toList) with
  | some n => .ok (UInt64.ofNat n)
  | none => .error (.invalidValue row column value)

structure Columns where
  insertSize : Nat
  rehashRounds : Nat

def Columns.ofHeader (header : List String) : Except LoadError Columns := do
  let insertSize ← columnIndex header insertSizeColumn
  let rehashRounds ← columnIndex header rehashRoundsColumn
  return ⟨insertSize, rehashRounds⟩

def Columns.readRow (columns : Columns) (record : Csv.Record) (row : Nat) :
    Except LoadError Sample := do
  let fields ← decodeRecord row record
  let insertSize ← readValue fields columns.insertSize row insertSizeColumn
  let rehashRounds ← readValue fields columns.rehashRounds row rehashRoundsColumn
  return ⟨insertSize, rehashRounds⟩

def Columns.readRows (columns : Columns) (records : List Csv.Record) :
    Except LoadError (List Sample) :=
  (records.zipIdx 1).mapM fun (record, row) => columns.readRow record row

/-- The complete records of an input; where it ends as it should, also the last, unfinished one. -/
def recordsOf (bytes : List UInt8) : Ending → List Csv.Record
  | .complete => (Csv.scan bytes).records.toList ++ (Csv.scan bytes).pending.toList
  | .broken _ => (Csv.scan bytes).records.toList

/-- What an input that broke off leads to, once all that came before has been judged. -/
def Ending.judge : Ending → Except LoadError Unit
  | .complete => .ok ()
  | .broken complaint => .error (.table (.broken complaint))

/-- The columns and the rows of a list of records; without a header there are no columns. -/
def loadRecords (ending : Ending) : List Csv.Record → Except LoadError (List Sample)
  | [] => do
      ending.judge
      let _ ← Columns.ofHeader []
      return []
  | header :: rows => do
      let names ← decodeRecord 0 header
      let columns ← Columns.ofHeader names
      let samples ← columns.readRows rows
      ending.judge
      return samples

def load (bytes : List UInt8) (ending : Ending) : Except LoadError (List Sample) :=
  loadRecords ending (recordsOf bytes ending)

end RehashChart.Benchmark
