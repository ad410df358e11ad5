import RehashChart.Csv.Reader

/-! # Written tables

A field is written bare or in quotes, a record ends with any line end, and empty lines may stand
anywhere between records.
-/

namespace RehashChart.Csv

/-! ## Writing -/

def doubleQuotes (text : List Char) : List Char :=
  text.flatMap fun c => if c = '"' then ['"', '"'] else [c]

def isSeparator (c : Char) : Bool := c = ',' || c = '\r' || c = '\n'

inductive WrittenField (text : String) : List Char → Prop where
  | bare (plain : ∀ c ∈ text.toList, isSeparator c = false)
      (unquoted : text.toList.head? ≠ some '"') : WrittenField text text.toList
  | quoted : WrittenField text ('"' :: doubleQuotes text.toList ++ ['"'])

inductive WrittenFields : List String → List Char → Prop where
  | last {text : String} {written : List Char} :
      WrittenField text written → WrittenFields [text] written
  | more {text : String} {fields : List String} {written rest : List Char} :
      WrittenField text written → WrittenFields fields rest →
        WrittenFields (text :: fields) (written ++ ',' :: rest)

/-- The fields of a record; a single empty field has to be in quotes, or it would not be seen. -/
structure WrittenRecord (fields : List String) (written : List Char) : Prop where
  parts : WrittenFields fields written
  visible : fields = [""] → written = ['"', '"']

inductive LineEnd : List Char → Prop where
  | lineFeed : LineEnd ['\n']
  | carriageReturn : LineEnd ['\r']
  | both : LineEnd ['\r', '\n']

inductive BlankLines : List Char → Prop where
  | none : BlankLines []
  | more {ending rest : List Char} : LineEnd ending → BlankLines rest → BlankLines (ending ++ rest)

/-- Any number of records, each with a line end, which the last one may lack, and blank lines
before, between and after them. -/
inductive WrittenRecords : List (List String) → List Char → Prop where
  | none {blank : List Char} : BlankLines blank → WrittenRecords [] blank
  | last {blank written : List Char} {fields : List String} :
      BlankLines blank → WrittenRecord fields written → WrittenRecords [fields] (blank ++ written)
  | more {blank written ending rest : List Char} {fields : List String}
      {records : List (List String)} :
      BlankLines blank → WrittenRecord fields written → LineEnd ending →
        WrittenRecords records rest →
          WrittenRecords (fields :: records) (blank ++ (written ++ (ending ++ rest)))

def encodeText (text : List Char) : List UInt8 := text.flatMap String.utf8EncodeChar

/-- The bytes of written records: with a byte order mark before them or, unless they would seem to
have one, without. -/
inductive WrittenBytes (records : List (List String)) : List UInt8 → Prop where
  | marked {text : List Char} :
      WrittenRecords records text → WrittenBytes records (byteOrderMark ++ encodeText text)
  | unmarked {text : List Char} :
      WrittenRecords records text → ¬byteOrderMark <+: encodeText text →
        WrittenBytes records (encodeText text)

@[simp] theorem encodeText_append (a b : List Char) :
    encodeText (a ++ b) = encodeText a ++ encodeText b := List.flatMap_append

@[simp] theorem encodeText_cons (c : Char) (text : List Char) :
    encodeText (c :: text) = String.utf8EncodeChar c ++ encodeText text := rfl

def fieldOf (text : String) : Field := text.toUTF8

theorem fieldOf_eq (text : String) : fieldOf text = (encodeText text.toList).toByteArray := by
  rw [fieldOf, encodeText, ← List.utf8Encode, ← String.toByteArray_ofList, String.ofList_toList]
  rfl

theorem toNat_of_mem_utf8EncodeChar {c : Char} {b : UInt8} (h : b ∈ String.utf8EncodeChar c)
    (hb : b.toNat < 128) : c.toNat = b.toNat := by
  change c.val.toNat = b.toNat
  unfold String.utf8EncodeChar at h
  dsimp only at h
  generalize c.val.toNat = v at *
  split at h
  · rw [List.mem_singleton.mp h, UInt8.toNat_ofNat']
    omega
  split at h
  · simp only [List.mem_cons, List.not_mem_nil, or_false] at h
    rcases h with rfl | rfl <;> rw [UInt8.toNat_ofNat'] at hb <;> omega
  split at h
  · simp only [List.mem_cons, List.not_mem_nil, or_false] at h
    rcases h with rfl | rfl | rfl <;> rw [UInt8.toNat_ofNat'] at hb <;> omega
  · simp only [List.mem_cons, List.not_mem_nil, or_false] at h
    rcases h with rfl | rfl | rfl | rfl <;> rw [UInt8.toNat_ofNat'] at hb <;> omega

theorem eq_of_mem_utf8EncodeChar {c d : Char} {b : UInt8} (h : b ∈ String.utf8EncodeChar c)
    (hb : b.toNat < 128) (hd : d.toNat = b.toNat) : c = d := by
  have hc := toNat_of_mem_utf8EncodeChar h hb
  exact Char.ext (UInt32.toNat_inj.mp (hc.trans hd.symm))

theorem ne_quote_of_mem {c : Char} (hc : c ≠ '"') {b : UInt8} (h : b ∈ String.utf8EncodeChar c) :
    b ≠ quote := by
  rintro rfl
  exact hc (eq_of_mem_utf8EncodeChar h (by decide) rfl)

theorem endsRecord_of_mem {c : Char} (hr : c ≠ '\r') (hn : c ≠ '\n') {b : UInt8}
    (h : b ∈ String.utf8EncodeChar c) : endsRecord b = false := by
  simp only [endsRecord, Bool.or_eq_false_iff, decide_eq_false_iff_not]
  refine ⟨?_, ?_⟩ <;> rintro rfl
  · exact hr (eq_of_mem_utf8EncodeChar h (by decide) rfl)
  · exact hn (eq_of_mem_utf8EncodeChar h (by decide) rfl)

def IsPlain (b : UInt8) : Prop := b ≠ comma ∧ endsRecord b = false

theorem isPlain_of_mem {c : Char} (hc : isSeparator c = false) {b : UInt8}
    (h : b ∈ String.utf8EncodeChar c) : IsPlain b := by
  simp only [isSeparator, Bool.or_eq_false_iff, decide_eq_false_iff_not] at hc
  refine ⟨?_, endsRecord_of_mem hc.1.2 hc.2 h⟩
  rintro rfl
  exact hc.1.1 (eq_of_mem_utf8EncodeChar h (by decide) rfl)

theorem isPlain_of_mem_encodeText {text : List Char} (h : ∀ c ∈ text, isSeparator c = false) :
    ∀ b ∈ encodeText text, IsPlain b := by
  intro b hb
  obtain ⟨c, hc, hb⟩ := List.mem_flatMap.mp hb
  exact isPlain_of_mem (h c hc) hb

end RehashChart.Csv
