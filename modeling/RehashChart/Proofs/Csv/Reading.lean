import RehashChart.Proofs.Csv.Written

/-! # Reading written tables

A run of the phases over a written record and its line end completes exactly that record. From a run
of the phases the reader's records follow, whatever their positions are.
-/

namespace RehashChart.Csv

/-! ## Runs -/

/-- The phase after some bytes, and the fields of the records that they complete. -/
def Phase.run : Phase → List UInt8 → Phase × List (List Field)
  | p, [] => (p, [])
  | p, b :: rest =>
      let later := (p.step b).1.run rest
      (later.1, ((p.step b).2.map Array.toList).toList ++ later.2)

@[simp] theorem Phase.run_nil (p : Phase) : p.run [] = (p, []) := rfl

theorem Phase.run_append (p : Phase) (a b : List UInt8) :
    p.run (a ++ b) = (((p.run a).1.run b).1, (p.run a).2 ++ ((p.run a).1.run b).2) := by
  induction a generalizing p with
  | nil => rfl
  | cons x a ih => simp [run, ih, List.append_assoc]

/-- Bytes that complete no record lead from one phase to another. -/
def Phase.Leads (p : Phase) (bytes : List UInt8) (q : Phase) : Prop := p.run bytes = (q, [])

theorem Phase.Leads.append {p q : Phase} {a : List UInt8} (h : p.Leads a q) (b : List UInt8) :
    p.run (a ++ b) = q.run b := by
  rw [run_append, h]
  rfl

theorem Phase.Leads.trans {p q r : Phase} {a b : List UInt8} (h : p.Leads a q) (k : q.Leads b r) :
    p.Leads (a ++ b) r := by
  rw [Leads, h.append]
  exact k

theorem Phase.Leads.step {p q r : Phase} {b : UInt8} {rest : List UInt8}
    (h : p.step b = (q, none)) (k : q.Leads rest r) : p.Leads (b :: rest) r := by
  unfold Leads at k ⊢
  simp [run, h, k]

theorem Reader.feed_run (r : Reader) (b : UInt8) :
    (r.feed b).phase = (r.phase.step b).1 ∧
      (r.feed b).records.toList.map (·.fields) = r.records.toList.map (·.fields) ++
        ((r.phase.step b).2.map Array.toList).toList := by
  unfold feed
  split <;> rename_i h <;> simp [h]

/-- The reader's phase and the fields of its records are those of a run. -/
theorem Reader.feedAll_run (r : Reader) (bytes : List UInt8) :
    (r.feedAll bytes).phase = (r.phase.run bytes).1 ∧
      (r.feedAll bytes).records.toList.map (·.fields) =
        r.records.toList.map (·.fields) ++ (r.phase.run bytes).2 := by
  induction bytes generalizing r with
  | nil => simp [feedAll]
  | cons b rest ih =>
      obtain ⟨hphase, hrecords⟩ := r.feed_run b
      have h := ih (r.feed b)
      rw [hphase, hrecords] at h
      simpa [feedAll, Phase.run, List.append_assoc] using h

/-- The fields of the records that are read of some bytes, if the input ends after them. -/
def Phase.reads (p : Phase) (bytes : List UInt8) : List (List Field) :=
  (p.run bytes).2 ++ ((p.run bytes).1.pending.map Array.toList).toList

def Reader.all (r : Reader) : List Record := r.records.toList ++ r.pending.toList

/-- The fields that a reader has read are those of its records and then those of a run. -/
theorem Reader.map_fields_feedAll (r : Reader) (bytes : List UInt8) :
    (r.feedAll bytes).all.map (·.fields) =
      r.records.toList.map (·.fields) ++ r.phase.reads bytes := by
  obtain ⟨hphase, hrecords⟩ := r.feedAll_run bytes
  have hpending : (r.feedAll bytes).pending.toList.map (·.fields) =
      ((r.phase.run bytes).1.pending.map Array.toList).toList := by
    rw [pending, hphase]
    cases (r.phase.run bytes).1.pending <;> rfl
  rw [all, List.map_append, hrecords, hpending, List.append_assoc]
  rfl

theorem scan_of_unmarked {bytes : List UInt8} (h : ¬byteOrderMark <+: bytes) :
    scan bytes = Reader.feedAll ⟨#[], .outside, .origin, .origin⟩ bytes := by
  unfold scan
  split
  · exact absurd ⟨_, rfl⟩ h
  · rfl

/-! ## Fields -/

theorem push_append (field : Field) (b : UInt8) (rest : List UInt8) :
    field.push b ++ rest.toByteArray = field ++ (b :: rest).toByteArray := by
  ext1
  simp [ByteArray.data_append, List.data_toByteArray]

theorem leads_bare {bytes : List UInt8} (h : ∀ b ∈ bytes, IsPlain b) (done : Array Field)
    (field : Field) :
    (Phase.bare done field).Leads bytes (.bare done (field ++ bytes.toByteArray)) := by
  induction bytes generalizing field with
  | nil => simp [Phase.Leads]
  | cons b rest ih =>
      obtain ⟨hcomma, hend⟩ := h b List.mem_cons_self
      rw [← push_append]
      refine .step ?_ (ih (fun x hx => h x (List.mem_cons_of_mem b hx)) (field.push b))
      simp [Phase.step, Phase.inBare, hcomma, hend]

/-- Quotes aside, a quoted field takes every byte. -/
theorem leads_quoted {bytes : List UInt8} (h : ∀ b ∈ bytes, b ≠ quote) (done : Array Field)
    (field : Field) :
    (Phase.quoted done field).Leads bytes (.quoted done (field ++ bytes.toByteArray)) := by
  induction bytes generalizing field with
  | nil => simp [Phase.Leads]
  | cons b rest ih =>
      rw [← push_append]
      refine .step ?_ (ih (fun x hx => h x (List.mem_cons_of_mem b hx)) (field.push b))
      simp [Phase.step, h b List.mem_cons_self]

theorem utf8EncodeChar_quote : String.utf8EncodeChar '"' = [quote] := by decide

theorem leads_doubleQuotes (text : List Char) (done : Array Field) (field : Field) :
    (Phase.quoted done field).Leads (encodeText (doubleQuotes text))
      (.quoted done (field ++ (encodeText text).toByteArray)) := by
  induction text generalizing field with
  | nil => simp [Phase.Leads, doubleQuotes, encodeText]
  | cons c text ih =>
      have hrest := ih (field ++ (String.utf8EncodeChar c).toByteArray)
      rw [ByteArray.append_assoc, ← List.toByteArray_append, ← encodeText_cons] at hrest
      have hsplit : encodeText (doubleQuotes (c :: text)) =
          encodeText (if c = '"' then ['"', '"'] else [c]) ++ encodeText (doubleQuotes text) := by
        simp [doubleQuotes]
      rw [hsplit]
      refine .trans ?_ hrest
      by_cases hc : c = '"'
      · subst hc
        rw [if_pos rfl, utf8EncodeChar_quote, ByteArray.append_toByteArray_singleton]
        exact .step rfl (.step rfl rfl)
      · simpa [hc, encodeText] using leads_quoted (fun b hb => ne_quote_of_mem hc hb) done field

/-- A phase in which a field of a record has been read, and may end. -/
inductive Phase.Holds (done : Array Field) (field : Field) : Phase → Prop where
  | bare : Holds done field (.bare done field)
  | closing : Holds done field (.closing done field)
  | opened : field = .empty → Holds done field (.opened done)

theorem Phase.Holds.step_comma {done : Array Field} {field : Field} {p : Phase}
    (h : p.Holds done field) : p.step comma = (.opened (done.push field), none) := by
  cases h with
  | bare => rfl
  | closing => rfl
  | opened empty =>
      subst empty
      rfl

theorem Phase.Holds.step_end {done : Array Field} {field : Field} {p : Phase}
    (h : p.Holds done field) {b : UInt8} (hb : endsRecord b = true) :
    p.step b = (.outside, some (done.push field)) := by
  have hcomma : b ≠ comma := by
    rintro rfl
    exact absurd hb (by decide)
  have hquote : b ≠ quote := by
    rintro rfl
    exact absurd hb (by decide)
  cases h with
  | bare => simp [step, inBare, hcomma, hb]
  | closing => simp [step, inBare, hcomma, hquote, hb]
  | opened empty => simp [step, atField, inBare, hcomma, hquote, hb, empty]

theorem Phase.Holds.pending_eq {done : Array Field} {field : Field} {p : Phase}
    (h : p.Holds done field) : p.pending = some (done.push field) := by
  cases h with
  | bare => rfl
  | closing => rfl
  | opened empty =>
      subst empty
      rfl

theorem leads_opened {b : UInt8} {rest : List UInt8} (h : ∀ x ∈ b :: rest, IsPlain x)
    (hb : b ≠ quote) (done : Array Field) :
    (Phase.opened done).Leads (b :: rest) (.bare done (b :: rest).toByteArray) := by
  obtain ⟨hcomma, hend⟩ := h b List.mem_cons_self
  rw [← ByteArray.empty_append (b := (b :: rest).toByteArray), ← push_append]
  refine .step ?_ (leads_bare (fun x hx => h x (List.mem_cons_of_mem b hx)) done _)
  simp [Phase.step, Phase.atField, Phase.inBare, hb, hcomma, hend]

/-- A written field is read up to where it may end. -/
theorem WrittenField.leads {text : String} {written : List Char} (h : WrittenField text written)
    (done : Array Field) :
    ∃ p, (Phase.opened done).Leads (encodeText written) p ∧ p.Holds done (fieldOf text) := by
  rw [fieldOf_eq]
  cases h with
  | bare plain unquoted =>
      cases htext : text.toList with
      | nil => exact ⟨.opened done, rfl, .opened rfl⟩
      | cons c rest =>
          rw [htext] at plain unquoted
          have hplain := isPlain_of_mem_encodeText plain
          have hstart : ∀ b ∈ String.utf8EncodeChar c, b ≠ quote := by
            intro b hb
            exact ne_quote_of_mem (fun hc => unquoted (by rw [hc]; rfl)) hb
          refine ⟨_, ?_, .bare⟩
          rw [encodeText_cons] at hplain ⊢
          cases hc : String.utf8EncodeChar c with
          | nil => exact absurd hc String.utf8EncodeChar_ne_nil
          | cons b more =>
              rw [hc] at hplain hstart
              exact leads_opened hplain (hstart b List.mem_cons_self) done
  | quoted =>
      refine ⟨_, ?_, .closing⟩
      have hinside := leads_doubleQuotes text.toList done .empty
      rw [ByteArray.empty_append] at hinside
      rw [encodeText_append, encodeText_cons, utf8EncodeChar_quote, List.singleton_append,
        List.cons_append]
      exact .step rfl (hinside.trans (.step rfl rfl))

theorem WrittenFields.leads {fields : List String} {written : List Char}
    (h : WrittenFields fields written) (done : Array Field) :
    ∃ p sofar field, (Phase.opened done).Leads (encodeText written) p ∧ p.Holds sofar field ∧
      (sofar.push field).toList = done.toList ++ fields.map fieldOf := by
  -- the fields before the next one are in `done`
  induction h generalizing done with
  | last hfield =>
      obtain ⟨p, hp, holds⟩ := hfield.leads done
      exact ⟨p, done, _, hp, holds, by simp⟩
  | @more text fields written rest hfield _ ih =>
      obtain ⟨p, hp, holds⟩ := hfield.leads done
      obtain ⟨q, sofar, field, hq, last, heq⟩ := ih (done.push (fieldOf text))
      refine ⟨q, sofar, field, ?_, last, by rw [heq]; simp⟩
      rw [encodeText_append, encodeText_cons]
      exact hp.trans (.step holds.step_comma hq)

/-! ## Records -/

/-- The first byte of a record tells that there is one, if it does not end a line. -/
theorem run_outside_eq_opened {b : UInt8} {rest : List UInt8} (h : endsRecord b = false) :
    Phase.outside.run (b :: rest) = (Phase.opened #[]).run (b :: rest) := by
  have hstep : Phase.outside.step b = (Phase.opened #[]).step b := by simp [Phase.step, h]
  rw [Phase.run, Phase.run, hstep]

theorem WrittenField.head {text : String} {c : Char} {rest : List Char}
    (h : WrittenField text (c :: rest)) : c ≠ '\r' ∧ c ≠ '\n' := by
  generalize hw : c :: rest = written at h
  cases h with
  | bare plain _ =>
      have hc := plain c (hw ▸ List.mem_cons_self)
      simp only [isSeparator, Bool.or_eq_false_iff, decide_eq_false_iff_not] at hc
      exact ⟨hc.1.2, hc.2⟩
  | quoted =>
      rw [List.cons_append, List.cons.injEq] at hw
      rw [hw.1]
      decide

theorem WrittenFields.head {fields : List String} {c : Char} {rest : List Char}
    (h : WrittenFields fields (c :: rest)) : c ≠ '\r' ∧ c ≠ '\n' := by
  generalize hw : c :: rest = written at h
  cases h with
  | last hfield => exact (hw ▸ hfield : WrittenField _ (c :: rest)).head
  | @more text fields part tail hfield _ =>
      cases part with
      | nil =>
          rw [List.nil_append, List.cons.injEq] at hw
          rw [hw.1]
          decide
      | cons d more =>
          rw [List.cons_append, List.cons.injEq] at hw
          rw [hw.1]
          exact hfield.head

theorem WrittenRecord.ne_nil {fields : List String} {written : List Char}
    (h : WrittenRecord fields written) : written ≠ [] := by
  rintro rfl
  have hlone : fields = [""] := by
    generalize hw : ([] : List Char) = written at h
    obtain ⟨hparts, _⟩ := h
    cases hparts with
    | @last text _ hfield =>
        cases hfield with
        | bare _ _ =>
            have htext : text = "" := by rw [← String.ofList_toList (s := text), ← hw]
            rw [htext]
        | quoted => simp at hw
    | more _ _ => simp at hw
  exact absurd (h.visible hlone) (by decide)

/-- A written record is read from between two records as one that has begun. -/
theorem WrittenRecord.run_outside {fields : List String} {written : List Char}
    (h : WrittenRecord fields written) :
    Phase.outside.run (encodeText written) = (Phase.opened #[]).run (encodeText written) := by
  obtain ⟨c, rest, rfl⟩ := List.exists_cons_of_ne_nil h.ne_nil
  obtain ⟨hr, hn⟩ := h.parts.head
  rw [encodeText_cons]
  cases hc : String.utf8EncodeChar c with
  | nil => exact absurd hc String.utf8EncodeChar_ne_nil
  | cons b more =>
      exact run_outside_eq_opened (endsRecord_of_mem hr hn (hc ▸ List.mem_cons_self))

theorem WrittenRecord.leads {fields : List String} {written : List Char}
    (h : WrittenRecord fields written) :
    ∃ p sofar field, Phase.outside.Leads (encodeText written) p ∧ p.Holds sofar field ∧
      (sofar.push field).toList = fields.map fieldOf := by
  obtain ⟨p, sofar, field, hp, holds, heq⟩ := h.parts.leads #[]
  exact ⟨p, sofar, field, h.run_outside.trans hp, holds, by rw [heq]; rfl⟩

theorem LineEnd.leads {ending : List Char} (h : LineEnd ending) :
    Phase.outside.Leads (encodeText ending) .outside := by
  cases h <;> rfl

theorem BlankLines.leads {blank : List Char} (h : BlankLines blank) :
    Phase.outside.Leads (encodeText blank) .outside := by
  induction h with
  | none => rfl
  | more hending _ ih =>
      rw [encodeText_append]
      exact hending.leads.trans ih

theorem LineEnd.run_holds {ending : List Char} (h : LineEnd ending) {p : Phase}
    {done : Array Field} {field : Field} (holds : p.Holds done field) :
    p.run (encodeText ending) = (.outside, [(done.push field).toList]) := by
  have hone : ∀ b, endsRecord b = true → ∀ rest, Phase.outside.Leads rest .outside →
      p.run (b :: rest) = (.outside, [(done.push field).toList]) := by
    intro b hb rest hrest
    rw [Phase.run, holds.step_end hb]
    dsimp only
    rw [show Phase.outside.run rest = (.outside, []) from hrest]
    rfl
  cases h with
  | lineFeed => exact hone Csv.lineFeed (by decide) [] rfl
  | carriageReturn => exact hone Csv.carriageReturn (by decide) [] rfl
  | both => exact hone Csv.carriageReturn (by decide) [Csv.lineFeed] rfl

/-- Written records are read as they are: some of them complete, and the last one maybe up to the
end of the input. -/
theorem WrittenRecords.reads {records : List (List String)} {written : List Char}
    (h : WrittenRecords records written) :
    Phase.outside.reads (encodeText written) = records.map (·.map fieldOf) := by
  unfold Phase.reads
  induction h with
  | none hblank =>
      rw [show Phase.outside.run _ = (.outside, []) from hblank.leads]
      rfl
  | last hblank hrecord =>
      obtain ⟨p, sofar, field, hp, holds, heq⟩ := hrecord.leads
      rw [encodeText_append, hblank.leads.append, show Phase.outside.run _ = (p, []) from hp]
      simp [holds.pending_eq, ← heq]
  | more hblank hrecord hending _ ih =>
      obtain ⟨p, sofar, field, hp, holds, heq⟩ := hrecord.leads
      rw [encodeText_append, encodeText_append, encodeText_append, hblank.leads.append, hp.append,
        Phase.run_append, hending.run_holds holds]
      simpa [← heq] using ih

end RehashChart.Csv
