/-! # Reading records of comma separated values

The reader takes one byte at a time. `Reader.feed` is the whole rule, and feeding is a fold: reading
`a` and then `b` is reading `a ++ b`.
-/

namespace RehashChart.Csv

/-- A place between two bytes: the number of line feeds before it, plus one, and of bytes. -/
structure Position where
  line : Nat
  byte : Nat
  deriving DecidableEq

def Position.origin : Position := ⟨1, 0⟩

def lineFeed : UInt8 := 10
def carriageReturn : UInt8 := 13
def quote : UInt8 := 34
def comma : UInt8 := 44

def Position.after (p : Position) (byte : UInt8) : Position :=
  ⟨if byte = lineFeed then p.line + 1 else p.line, p.byte + 1⟩

abbrev Field := ByteArray

structure Record where
  start : Position
  fields : List Field

/-- What the reader is in the middle of; `done` holds the fields of the record that are complete. -/
inductive Phase where
  /-- Between two records. -/
  | outside
  /-- After a comma. -/
  | opened (done : Array Field)
  | bare (done : Array Field) (field : Field)
  | quoted (done : Array Field) (field : Field)
  /-- After a quote in a quoted field: its end, or the first half of a quote. -/
  | closing (done : Array Field) (field : Field)

/-- The phase after a byte, and the fields of the record that it completes, if it does. -/
abbrev Step := Phase × Option (Array Field)

def endsRecord (byte : UInt8) : Bool := byte = carriageReturn || byte = lineFeed

def Phase.inBare (done : Array Field) (field : Field) (byte : UInt8) : Step :=
  if byte = comma then (.opened (done.push field), none)
  else if endsRecord byte then (.outside, some (done.push field))
  else (.bare done (field.push byte), none)

def Phase.atField (done : Array Field) (byte : UInt8) : Step :=
  if byte = quote then (.quoted done .empty, none) else Phase.inBare done .empty byte

def Phase.step : Phase → UInt8 → Step
  | outside, byte => if endsRecord byte then (outside, none) else atField #[] byte
  | opened done, byte => atField done byte
  | bare done field, byte => inBare done field byte
  | quoted done field, byte =>
      if byte = quote then (closing done field, none) else (quoted done (field.push byte), none)
  | closing done field, byte =>
      if byte = quote then (quoted done (field.push byte), none) else inBare done field byte

/-- The fields of the record that is unfinished where the input ends. -/
def Phase.pending : Phase → Option (Array Field)
  | outside => none
  | opened done => some (done.push .empty)
  | bare done field => some (done.push field)
  | quoted done field => some (done.push field)
  | closing done field => some (done.push field)

structure Reader where
  /-- The records completed so far. -/
  records : Array Record
  phase : Phase
  /-- Where reading of the present record began. -/
  start : Position
  here : Position

def Reader.feed (r : Reader) (byte : UInt8) : Reader :=
  let here := r.here.after byte
  match r.phase.step byte with
  | (phase, none) => ⟨r.records, phase, r.start, here⟩
  | (phase, some fields) => ⟨r.records.push ⟨r.start, fields.toList⟩, phase, here, here⟩

def Reader.feedAll (r : Reader) (bytes : List UInt8) : Reader := bytes.foldl Reader.feed r

theorem Reader.feedAll_append (r : Reader) (a b : List UInt8) :
    r.feedAll (a ++ b) = (r.feedAll a).feedAll b := by
  simp [feedAll]

def Reader.pending (r : Reader) : Option Record :=
  r.phase.pending.map fun fields => ⟨r.start, fields.toList⟩

/-- The mark that may stand before the first byte of a UTF-8 text. -/
def byteOrderMark : List UInt8 := [0xEF, 0xBB, 0xBF]

/-- The reader that has read a whole input. The byte order mark counts in positions only. -/
def scan : List UInt8 → Reader
  | 0xEF :: 0xBB :: 0xBF :: rest => Reader.feedAll ⟨#[], .outside, .origin, ⟨1, 3⟩⟩ rest
  | bytes => Reader.feedAll ⟨#[], .outside, .origin, .origin⟩ bytes

end RehashChart.Csv
