import RehashChart.Proofs.Json.Numerals

/-! # Reading what is written

The text of a value is read back whole, whatever follows it in an object or at the end of a text.
-/

namespace RehashChart.Json

open Text (isHexDigit ofBase)

/-! ## Texts -/

/-- A piece that stands for a character: the character itself, or its code in an escape. -/
inductive Spells : Piece → Char → Prop where
  | plain (c : Char) : Spells (.plain c) c
  | unit {c : Char} : c < ' ' → Spells (.unit c.toNat) c

theorem controlDigits_spec : ∀ n < 32,
    (controlDigits (Char.ofNat n)).length = 2 ∧
      (controlDigits (Char.ofNat n)).all isHexDigit = true ∧
      ofBase 16 ('0' :: '0' :: controlDigits (Char.ofNat n)) = n := by
  decide

theorem exists_controlDigits {c : Char} (hc : c < ' ') :
    ∃ a b, controlDigits c = [a, b] ∧ ['0', '0', a, b].all isHexDigit = true ∧
      ofBase 16 ['0', '0', a, b] = c.toNat := by
  have hless : c.toNat < 32 := UInt32.lt_iff_toNat_lt.mp hc
  obtain ⟨hlength, hdigits, hvalue⟩ := controlDigits_spec c.toNat hless
  rw [Char.ofNat_toNat] at hlength hdigits hvalue
  obtain ⟨a, b, hcontrol⟩ := List.length_eq_two.mp hlength
  rw [hcontrol] at hdigits hvalue
  refine ⟨a, b, hcontrol, ?_, hvalue⟩
  simpa [isHexDigit] using hdigits

theorem readPieces_escapedChar (c : Char) :
    ∃ p, Spells p c ∧ ∀ rest, readPieces (escapedChar c ++ rest) =
      (readPieces rest).map fun (pieces, rest) => (p :: pieces, rest) := by
  unfold escapedChar
  -- seven characters have short escapes
  iterate 7
    split
    · rename_i hc
      exact ⟨.plain c, .plain c, fun rest => by rw [hc]; rfl⟩
  split
  · rename_i hcontrol
    obtain ⟨a, b, hdigits, hhex, hvalue⟩ := exists_controlDigits hcontrol
    refine ⟨.unit c.toNat, .unit hcontrol, fun rest => ?_⟩
    rw [hdigits, ← hvalue]
    simp only [List.cons_append, List.nil_append, readPieces]
    rw [if_pos hhex]
  · rename_i hquote hslash _ _ _ _ _ hplain
    refine ⟨.plain c, .plain c, fun rest => ?_⟩
    rw [List.singleton_append, readPieces]
    · rw [if_neg (by simp [hplain, hslash])]
    all_goals simp_all

theorem join_cons {p : Piece} {c : Char} (h : Spells p c) (pieces : List Piece) :
    join (p :: pieces) = (join pieces).map (c :: ·) := by
  cases h with
  | plain => rw [join]
  | unit hc =>
      have hless : c.toNat < 32 := UInt32.lt_iff_toNat_lt.mp hc
      have hhigh : isHighHalf c.toNat = false := by
        simp only [isHighHalf, Bool.and_eq_false_iff, decide_eq_false_iff_not]
        omega
      have hlow : isLowHalf c.toNat = false := by
        simp only [isLowHalf, Bool.and_eq_false_iff, decide_eq_false_iff_not]
        omega
      cases pieces with
      | nil => simp [join, hhigh, hlow]
      | cons p pieces =>
          cases p with
          | plain d => simp [join, hhigh, hlow]
          | unit n => simp [join, hhigh, hlow]

theorem readPieces_flatMap (text rest : List Char) :
    ∃ pieces, readPieces (text.flatMap escapedChar ++ '"' :: rest) = some (pieces, rest) ∧
      join pieces = some text := by
  induction text with
  | nil => exact ⟨[], rfl, rfl⟩
  | cons c text ih =>
      obtain ⟨pieces, hread, hjoin⟩ := ih
      obtain ⟨p, hp, hchar⟩ := readPieces_escapedChar c
      refine ⟨p :: pieces, ?_, ?_⟩
      · rw [List.flatMap_cons, List.append_assoc, hchar, hread]
        rfl
      · rw [join_cons hp, hjoin]
        rfl

theorem toList_textInQuotes (s : String) (rest : List Char) :
    (textInQuotes s).toList ++ rest = '"' :: (s.toList.flatMap escapedChar ++ '"' :: rest) := by
  rw [textInQuotes, String.toList_ofList]
  simp

/-! ## Values that are no objects -/

/-- What a number is read back as: its parts, or nothing if it is not finite. -/
def numberReading : Binary64 → Reading
  | .finite negative m e _ => .number (numeralOf negative m e)
  | _ => .null

mutual

/-- What the text of a value is read back as. -/
def Value.reading : Value → Reading
  | .boolean b => .boolean b
  | .natural n => .number ⟨false, Nat.toDigits 10 n, [], none⟩
  | .number x => numberReading x
  | .text s => .text (some s)
  | .object members => .object (memberReadings members)

def memberReadings : List (String × Value) → List (Option String × Reading)
  | [] => []
  | (name, value) :: rest => (some name, value.reading) :: memberReadings rest

end

theorem expectWord_append (word rest : List Char) : expectWord word (word ++ rest) = some rest := by
  rw [expectWord, if_pos (List.isPrefixOf_iff_prefix.mpr (List.prefix_append word rest)),
    List.drop_left]

theorem readFlat_null (rest : List Char) :
    readFlat ("null".toList ++ rest) = some (.null, rest) := by
  have hword := expectWord_append ['u', 'l', 'l'] rest
  have htext : "null".toList ++ rest = 'n' :: (['u', 'l', 'l'] ++ rest) := rfl
  rw [htext, readFlat, hword]
  rfl

theorem readFlat_boolean (b : Bool) (rest : List Char) :
    readFlat ((Value.boolean b).flat.toList ++ rest) = some (.boolean b, rest) := by
  cases b with
  | true =>
      have hword := expectWord_append ['r', 'u', 'e'] rest
      have htext : "true".toList ++ rest = 't' :: (['r', 'u', 'e'] ++ rest) := rfl
      rw [Value.flat, if_pos rfl, htext, readFlat, hword]
      rfl
  | false =>
      have hword := expectWord_append ['a', 'l', 's', 'e'] rest
      have htext : "false".toList ++ rest = 'f' :: (['a', 'l', 's', 'e'] ++ rest) := rfl
      rw [Value.flat, if_neg Bool.false_ne_true, htext, readFlat, hword]
      rfl

theorem readFlat_natural (n : Nat) {rest : List Char} (hrest : Ends rest) :
    readFlat ((Value.natural n).flat.toList ++ rest) =
      some (.number ⟨false, Nat.toDigits 10 n, [], none⟩, rest) := by
  have hdecimal := Text.isDecimal_iff.mpr (rfl : Nat.toDigits 10 n = Nat.toDigits 10 n)
  have hsound : Numeral.Sound ⟨false, Nat.toDigits 10 n, [], none⟩ :=
    ⟨hdecimal.digits, hdecimal.unpadded, by simp, by simp⟩
  have hread := readFlat_number hsound hrest
  have htext : (Value.natural n).flat.toList = Nat.toDigits 10 n := by
    simp [Value.flat, toString, Nat.repr]
  rw [Binary64.signed, String.toList_ofList, if_neg Bool.false_ne_true, Numeral.unsigned,
    Numeral.fractionText, Numeral.exponentText, List.append_nil, List.append_nil] at hread
  rwa [htext]

theorem readFlat_numberText (x : Binary64) {rest : List Char} (hrest : Ends rest) :
    readFlat ((Value.number x).flat.toList ++ rest) = some (numberReading x, rest) := by
  rw [Value.flat]
  cases x with
  | nan => exact readFlat_null rest
  | infinity s => exact readFlat_null rest
  | finite s m e h =>
      have hread := readFlat_number (numeralOf_tells s h).sound hrest
      rw [numeralOf_negative] at hread
      rw [numberText_finite]
      exact hread

theorem readFlat_text (s : String) (rest : List Char) :
    readFlat ((Value.text s).flat.toList ++ rest) = some (.text (some s), rest) := by
  obtain ⟨pieces, hread, hjoin⟩ := readPieces_flatMap s.toList rest
  rw [Value.flat, toList_textInQuotes, readFlat, hread]
  simp only [Option.map_some, hjoin, String.ofList_toList]

/-! ## Objects -/

theorem dropSpace_cons {c : Char} (hc : isSpace c = false) (rest : List Char) :
    dropSpace (c :: rest) = c :: rest := by
  rw [dropSpace, List.dropWhile_cons_of_neg (by rw [hc]; exact Bool.false_ne_true)]

/-- Neither space nor a bracket starts a value that is no list and no object. -/
theorem readFlat_eq_none {c : Char} (hc : isSpace c = true ∨ c = '[' ∨ c = '\x7b')
    (rest : List Char) : readFlat (c :: rest) = none := by
  have hchars : c = ' ' ∨ c = '\n' ∨ c = '\t' ∨ c = '\r' ∨ c = '[' ∨ c = '\x7b' := by
    simpa [isSpace, or_assoc] using hc
  rcases hchars with rfl | rfl | rfl | rfl | rfl | rfl <;> rfl

theorem readValue_of_readFlat {text rest : List Char} {r : Reading}
    (h : readFlat text = some (r, rest)) (fuel : Nat) : readValue (fuel + 1) text = (r, rest) := by
  cases text with
  | nil => cases h
  | cons c cs =>
      have hstart : ¬(isSpace c = true ∨ c = '[' ∨ c = '\x7b') := by
        intro hc
        rw [readFlat_eq_none hc] at h
        cases h
      push Not at hstart
      obtain ⟨hspace, hlist, hobject⟩ := hstart
      rw [readValue, dropSpace_cons (Bool.eq_false_of_not_eq_true hspace)]
      split
      · rename_i hcons
        exact absurd (List.cons.inj hcons).1 hlist
      · rename_i hcons
        exact absurd (List.cons.inj hcons).1 hobject
      · rw [h]
        rfl

theorem toList_compactMembers (name : String) (value : Value) (members : List (String × Value))
    (rest : List Char) :
    (compactMembers ((name, value) :: members)).toList ++ rest =
      (textInQuotes name).toList ++ ':' :: (value.compact.toList ++
        ((if members = [] then [] else ',' :: (compactMembers members).toList) ++ rest)) := by
  cases members with
  | nil => simp [compactMembers]
  | cons member members =>
      rw [compactMembers]
      · simp
      · simp

section Members

variable {name : String} {fuel : Nat} {text rest : List Char} {value : Reading}

theorem readMembers_last (hvalue : readValue fuel text = (value, '\x7d' :: rest)) :
    readMembers (fuel + 1) ((textInQuotes name).toList ++ ':' :: text) =
      ([(some name, value)], rest) := by
  obtain ⟨pieces, hread, hjoin⟩ := readPieces_flatMap name.toList (':' :: text)
  rw [toList_textInQuotes, readMembers, dropSpace_cons (by decide)]
  simp only [hread, hjoin, Option.map_some, String.ofList_toList,
    dropSpace_cons (show isSpace ':' = false by decide), hvalue,
    dropSpace_cons (show isSpace '\x7d' = false by decide)]

theorem readMembers_next {text' rest' : List Char} {members : List (Option String × Reading)}
    (hvalue : readValue fuel text = (value, ',' :: text'))
    (hmembers : readMembers fuel text' = (members, rest')) :
    readMembers (fuel + 1) ((textInQuotes name).toList ++ ':' :: text) =
      ((some name, value) :: members, rest') := by
  obtain ⟨pieces, hread, hjoin⟩ := readPieces_flatMap name.toList (':' :: text)
  rw [toList_textInQuotes, readMembers, dropSpace_cons (by decide)]
  simp only [hread, hjoin, Option.map_some, String.ofList_toList,
    dropSpace_cons (show isSpace ':' = false by decide), hvalue,
    dropSpace_cons (show isSpace ',' = false by decide), hmembers]

theorem readValue_object {members : List (Option String × Reading)} (hstart : text.head? = some '"')
    (hmembers : readMembers fuel text = (members, rest)) :
    readValue (fuel + 1) ('\x7b' :: text) = (.object members, rest) := by
  cases text with
  | nil => cases hstart
  | cons c cs =>
      cases hstart
      rw [readValue, dropSpace_cons (by decide)]
      simp only [dropSpace_cons (show isSpace '"' = false by decide)]
      split
      · rename_i hcons
        exact absurd (List.cons.inj hcons).1 (by decide)
      · rw [hmembers]

theorem length_compactMembers (name : String) (value : Value) (members : List (String × Value)) :
    value.compact.toList.length + 3 ≤ (compactMembers ((name, value) :: members)).toList.length ∧
      (members ≠ [] → (compactMembers members).toList.length + 4 ≤
        (compactMembers ((name, value) :: members)).toList.length) := by
  have hlist := toList_compactMembers name value members []
  rw [List.append_nil] at hlist
  rw [hlist, ← List.append_nil (textInQuotes name).toList, toList_textInQuotes]
  simp only [List.append_nil, List.length_cons, List.length_append, List.length_nil]
  constructor
  · omega
  · intro hne
    rw [if_neg hne, List.length_cons]
    omega

end Members

/-- With so much fuel, values and members with shorter texts are read back, whatever follows them in
an object or at the end of a text. -/
structure ReadsBack (fuel : Nat) : Prop where
  value : ∀ (value : Value) (rest : List Char), Ends rest → value.compact.toList.length < fuel →
    readValue fuel (value.compact.toList ++ rest) = (value.reading, rest)
  members : ∀ (name : String) (value : Value) (members : List (String × Value)) (rest : List Char),
    (compactMembers ((name, value) :: members)).toList.length < fuel →
    readMembers fuel ((compactMembers ((name, value) :: members)).toList ++ '\x7d' :: rest) =
      (memberReadings ((name, value) :: members), rest)

theorem ReadsBack.value_succ {fuel : Nat} (h : ReadsBack fuel) (value : Value) {rest : List Char}
    (hrest : Ends rest) (hfuel : value.compact.toList.length < fuel + 1) :
    readValue (fuel + 1) (value.compact.toList ++ rest) = (value.reading, rest) := by
  cases value with
  | boolean b => exact readValue_of_readFlat (readFlat_boolean b rest) fuel
  | natural n => exact readValue_of_readFlat (readFlat_natural n hrest) fuel
  | number x => exact readValue_of_readFlat (readFlat_numberText x hrest) fuel
  | text s => exact readValue_of_readFlat (readFlat_text s rest) fuel
  | object members =>
      have htext : (Value.object members).compact.toList ++ rest =
          '\x7b' :: ((compactMembers members).toList ++ '\x7d' :: rest) := by
        simp [Value.compact]
      have hlength : (Value.object members).compact.toList.length =
          (compactMembers members).toList.length + 2 := by
        simp [Value.compact]
      rw [htext]
      cases members with
      | nil => rfl
      | cons member members =>
          obtain ⟨name, value⟩ := member
          refine readValue_object ?_ (h.members name value members rest (by omega))
          rw [toList_compactMembers, toList_textInQuotes]
          rfl

theorem ReadsBack.members_succ {fuel : Nat} (h : ReadsBack fuel) (name : String) (value : Value)
    (members : List (String × Value)) (rest : List Char)
    (hfuel : (compactMembers ((name, value) :: members)).toList.length < fuel + 1) :
    readMembers (fuel + 1) ((compactMembers ((name, value) :: members)).toList ++ '\x7d' :: rest) =
      (memberReadings ((name, value) :: members), rest) := by
  obtain ⟨hvalue, hmembers⟩ := length_compactMembers name value members
  rw [toList_compactMembers]
  cases members with
  | nil => exact readMembers_last (h.value value _ (ends_brace rest) (by omega))
  | cons member members =>
      obtain ⟨name', value'⟩ := member
      have hnext := hmembers (List.cons_ne_nil _ _)
      rw [if_neg (List.cons_ne_nil _ _), List.cons_append]
      exact readMembers_next (h.value value _ (ends_comma _) (by omega))
        (h.members name' value' members rest (by omega))

/-- The reader takes one unit of fuel for a value and one for each member. -/
theorem readsBack (fuel : Nat) : ReadsBack fuel := by
  induction fuel with
  | zero =>
      constructor
      · exact fun _ _ _ h => absurd h (Nat.not_lt_zero _)
      · exact fun _ _ _ _ h => absurd h (Nat.not_lt_zero _)
  | succ fuel ih =>
      exact ⟨fun value _ hrest hfuel => ih.value_succ value hrest hfuel, ih.members_succ⟩

theorem read_compact (value : Value) : read value.compact.toList = (value.reading, []) := by
  have hread := (readsBack _).value value [] ends_nil (Nat.lt_succ_self _)
  rwa [List.append_nil] at hread

end RehashChart.Json
