import Mathlib.Algebra.Group.Nat.Defs
import Mathlib.Data.List.TakeWhile
import RehashChart.Toml.Document

/-! # Documents of one entry

Every text can be written in double quotes. A document with one header and one assignment is read as
one section with one value, and it is no document if its value cannot be read, whatever follows.
-/

namespace RehashChart.Toml

open Text (hexValue isHexDigit ofBase)

/-! ## Texts in quotes -/

/-- The last hexadecimal digits of a number, as many as asked for. -/
def hexDigits : Nat → Nat → List Char
  | 0, _ => []
  | count + 1, n => hexDigits count (n / 16) ++ [Nat.digitChar (n % 16)]

def writtenChar (c : Char) : List Char :=
  if isPlain c && c ≠ '"' && c ≠ '\\' then [c] else '\\' :: 'U' :: hexDigits 8 c.toNat

def quotedText (text : String) : String :=
  "\"" ++ String.ofList (text.toList.flatMap writtenChar) ++ "\""

theorem hexDigit_digitChar : ∀ d < 16, isHexDigit (Nat.digitChar d) = true ∧
    hexValue (Nat.digitChar d) = d := by decide

theorem ofBase_append (base : Nat) (digits : List Char) (c : Char) :
    ofBase base (digits ++ [c]) = base * ofBase base digits + hexValue c := by
  simp [ofBase, List.foldl_append]

theorem ofBase_hexDigits (count n : Nat) : ofBase 16 (hexDigits count n) = n % 16 ^ count := by
  induction count generalizing n with
  | zero => simp [hexDigits, ofBase, Nat.mod_one]
  | succ count ih =>
      have hdigit := (hexDigit_digitChar (n % 16) (Nat.mod_lt _ (by decide))).2
      calc ofBase 16 (hexDigits (count + 1) n)
        _ = 16 * (n / 16 % 16 ^ count) + n % 16 := by rw [hexDigits, ofBase_append, ih, hdigit]
        _ = n % 16 ^ (count + 1) := by rw [Nat.pow_succ', Nat.mod_mul, Nat.add_comm]

theorem all_hexDigits (count n : Nat) : (hexDigits count n).all isHexDigit = true := by
  induction count generalizing n with
  | zero => rfl
  | succ count ih =>
      have hdigit := (hexDigit_digitChar (n % 16) (Nat.mod_lt _ (by decide))).1
      simp [hexDigits, ih, hdigit]

theorem escapedChar_hexDigits (c : Char) : escapedChar (hexDigits 8 c.toNat) = some c := by
  have hcode : ofBase 16 (hexDigits 8 c.toNat) = c.toNat := by
    rw [ofBase_hexDigits]
    exact Nat.mod_eq_of_lt (lt_of_lt_of_le c.val.toNat_lt (by decide))
  have hvalid : c.toNat.isValidChar := c.valid
  unfold escapedChar
  rw [all_hexDigits, if_pos rfl]
  dsimp only
  generalize ofBase 16 (hexDigits 8 c.toNat) = code at hcode ⊢
  subst hcode
  rw [dif_pos hvalid]
  rfl

theorem readBasic_writtenChar (c : Char) (rest : List Char) :
    readBasic (writtenChar c ++ rest) = (readBasic rest).map (prepend c) := by
  unfold writtenChar
  split
  · rename_i hplain
    simp only [ne_eq, decide_not, Bool.and_eq_true, Bool.not_eq_true',
      decide_eq_false_iff_not] at hplain
    obtain ⟨⟨hplain, hquote⟩, hslash⟩ := hplain
    rw [List.singleton_append, readBasic]
    · simp [hplain, hslash]
    all_goals simp_all
  · have hread := escapedChar_hexDigits c
    simp only [hexDigits, List.nil_append, List.cons_append] at hread ⊢
    rw [readBasic, hread, Option.bind_some]

theorem readBasic_flatMap (text rest : List Char) :
    readBasic (text.flatMap writtenChar ++ '"' :: rest) = some (text, rest) := by
  induction text with
  | nil => rfl
  | cons c text ih =>
      rw [List.flatMap_cons, List.append_assoc, readBasic_writtenChar, ih]
      rfl

theorem exists_writtenChar (c : Char) : ∃ d rest, writtenChar c = d :: rest ∧ d ≠ '"' := by
  unfold writtenChar
  split
  · rename_i hplain
    exact ⟨c, [], rfl, by simp_all⟩
  · exact ⟨'\\', _, rfl, by decide⟩

/-- A text in quotes is read back, unless a third quote follows two. -/
theorem readText_quotedText (text : String) {rest : List Char} (hrest : rest.head? ≠ some '"') :
    readText ((quotedText text).toList ++ rest) = some (text.toList, rest) := by
  have hbasic := readBasic_flatMap text.toList rest
  have hlist : (quotedText text).toList ++ rest =
      '"' :: (text.toList.flatMap writtenChar ++ '"' :: rest) := by
    simp [quotedText]
  rw [hlist]
  cases htext : text.toList with
  | nil =>
      rw [htext] at hbasic
      cases rest with
      | nil => exact hbasic
      | cons c rest =>
          have hc : c ≠ '"' := by simpa using hrest
          rw [readText]
          · exact hbasic
          · simpa using hc
  | cons c cs =>
      obtain ⟨d, ds, hd, hquote⟩ := exists_writtenChar c
      rw [htext] at hbasic
      rw [List.flatMap_cons, hd] at hbasic ⊢
      rw [readText]
      · exact hbasic
      · simp [hquote]

/-! ## Keys -/

structure IsBareKey (key : String) : Prop where
  ne : key ≠ ""
  chars : ∀ c ∈ key.toList, isKeyChar c = true

instance (key : String) : Decidable (IsBareKey key) :=
  decidable_of_iff (key ≠ "" ∧ key.toList.all isKeyChar = true)
    ⟨fun h => ⟨h.1, List.all_eq_true.mp h.2⟩, fun h => ⟨h.ne, List.all_eq_true.mpr h.chars⟩⟩

theorem ne_of_isKeyChar {c d : Char} (hc : isKeyChar c = true) (hd : isKeyChar d = false) :
    c ≠ d := by
  rintro rfl
  exact Bool.false_ne_true (hd.symm.trans hc)

theorem IsBareKey.exists_cons {key : String} (h : IsBareKey key) :
    ∃ c cs, key.toList = c :: cs ∧ isKeyChar c = true := by
  cases hkey : key.toList with
  | nil => exact absurd (String.toList_eq_nil_iff.mp hkey) h.ne
  | cons c cs => exact ⟨c, cs, rfl, h.chars c (hkey ▸ List.mem_cons_self)⟩

theorem dropSpace_of_not_isSpace {c : Char} (h : isSpace c = false) (rest : List Char) :
    dropSpace (c :: rest) = c :: rest := by
  rw [dropSpace, List.dropWhile_cons_of_neg (by simp [h])]

theorem isSpace_of_isKeyChar {c : Char} (h : isKeyChar c = true) : isSpace c = false := by
  have hspace := ne_of_isKeyChar h (d := ' ') (by decide)
  have htab := ne_of_isKeyChar h (d := '\t') (by decide)
  simp [isSpace, hspace, htab]

theorem readSimpleKey_bare {key : String} (h : IsBareKey key) {c : Char}
    (hc : isKeyChar c = false) (rest : List Char) :
    readSimpleKey (key.toList ++ c :: rest) = some (key, c :: rest) := by
  obtain ⟨d, ds, hd, hkeyChar⟩ := h.exists_cons
  have htake : (key.toList ++ c :: rest).takeWhile isKeyChar = key.toList := by
    rw [List.takeWhile_append_of_pos h.chars, List.takeWhile_cons_of_neg (by simp [hc]),
      List.append_nil]
  have hdrop : (key.toList ++ c :: rest).dropWhile isKeyChar = c :: rest := by
    rw [List.dropWhile_append_of_pos h.chars, List.dropWhile_cons_of_neg (by simp [hc])]
  have hne : key.toList ≠ [] := by simp [hd]
  unfold readSimpleKey
  split
  · rename_i heq
    rw [hd, List.cons_append, List.cons.injEq] at heq
    exact absurd heq.1 (ne_of_isKeyChar hkeyChar (by decide))
  · rename_i heq
    rw [hd, List.cons_append, List.cons.injEq] at heq
    exact absurd heq.1 (ne_of_isKeyChar hkeyChar (by decide))
  · dsimp only
    rw [htake, hdrop, if_neg hne, String.ofList_toList]

theorem readKey_bare {key : String} (h : IsBareKey key) {c : Char} (hc : isKeyChar c = false)
    {rest : List Char} (hnext : expect '.' (dropSpace (c :: rest)) = none) :
    readKey (key.toList ++ c :: rest) = some (([], key), dropSpace (c :: rest)) := by
  obtain ⟨d, ds, hd, hkeyChar⟩ := h.exists_cons
  have hstart : dropSpace (key.toList ++ c :: rest) = key.toList ++ c :: rest := by
    rw [hd, List.cons_append, dropSpace_of_not_isSpace (isSpace_of_isKeyChar hkeyChar)]
  have hnames : readNames (maxDepth - 1) key (dropSpace (c :: rest)) =
      some (([], key), dropSpace (c :: rest)) := by
    change readNames (77 + 1) key (dropSpace (c :: rest)) = _
    rw [readNames, hnext]
  simp only [readKey, hstart, readSimpleKey_bare h hc, Option.bind_eq_bind, Option.bind_some,
    hnames]

/-! ## Lines -/

/-- A character with which a line can start that holds more than a comment. -/
structure StartsLine (c : Char) : Prop where
  space : isSpace c = false
  lineFeed : c ≠ '\n'
  carriageReturn : c ≠ '\r'
  hash : c ≠ '#'

theorem startsLine_of_isKeyChar {c : Char} (h : isKeyChar c = true) : StartsLine c :=
  ⟨isSpace_of_isKeyChar h, ne_of_isKeyChar h (by decide), ne_of_isKeyChar h (by decide),
    ne_of_isKeyChar h (by decide)⟩

theorem readLines_cons {c : Char} {cs rest next : List Char} {line : Line} (hstart : StartsLine c)
    (hline : readLine (c :: cs) = some (line, rest)) (hend : endLine rest = some next)
    (hshorter : next.length < (c :: cs).length) :
    readLines (c :: cs) = (readLines next).map (line :: ·) := by
  rw [readLines]
  simp only [dropSpace_of_not_isSpace hstart.space, hstart.lineFeed, hstart.carriageReturn,
    hstart.hash, decide_false, Bool.or_self, Bool.false_eq_true, if_false, hline,
    Option.bind_some, hend, Option.map_some, hshorter, if_true]

theorem readLines_eq_none {c : Char} {cs : List Char} (hstart : StartsLine c)
    (hline : readLine (c :: cs) = none) : readLines (c :: cs) = none := by
  rw [readLines]
  simp only [dropSpace_of_not_isSpace hstart.space, hstart.lineFeed, hstart.carriageReturn,
    hstart.hash, decide_false, Bool.or_self, Bool.false_eq_true, if_false, hline,
    Option.bind_none]

theorem readLine_header {group : String} (h : IsBareKey group) (rest : List Char) :
    readLine ('[' :: (group.toList ++ ']' :: rest)) = some (.header [] group, rest) := by
  obtain ⟨d, ds, hd, hkeyChar⟩ := h.exists_cons
  have hbracket : dropSpace (']' :: rest) = ']' :: rest := dropSpace_of_not_isSpace (by decide) rest
  have hkey : readKey (group.toList ++ ']' :: rest) = some (([], group), ']' :: rest) := by
    rw [readKey_bare h (by decide) (by rw [hbracket]; rfl), hbracket]
  rw [readLine]
  · simp only [hkey, Option.bind_eq_bind, Option.bind_some]
    rfl
  · intro text heq
    rw [hd, List.cons_append, List.cons.injEq] at heq
    exact ne_of_isKeyChar hkeyChar (by decide) heq.1

theorem readLine_assignment {name : String} (h : IsBareKey name) (rest : List Char) :
    readLine (name.toList ++ ' ' :: '=' :: ' ' :: rest) =
      (readValue maxDepth (dropSpace rest)).map fun (v, text) =>
        (.assignment ⟨[], name, v⟩, dropSpace text) := by
  obtain ⟨d, ds, hd, hkeyChar⟩ := h.exists_cons
  have hequals : dropSpace (' ' :: '=' :: ' ' :: rest) = '=' :: ' ' :: rest := rfl
  have hspace : dropSpace (' ' :: rest) = dropSpace rest := rfl
  have hkey : readKey (name.toList ++ ' ' :: '=' :: ' ' :: rest) =
      some (([], name), '=' :: ' ' :: rest) := by
    rw [readKey_bare h (by decide) (by rw [hequals]; rfl), hequals]
  rw [readLine]
  · simp only [readAssignment, hkey, Option.bind_eq_bind, Option.bind_some, expect, if_true,
      hspace]
    cases readValue maxDepth (dropSpace rest) <;> rfl
  · intro text heq
    rw [hd, List.cons_append, List.cons.injEq] at heq
    exact ne_of_isKeyChar hkeyChar (by decide) heq.1
  · intro text heq
    rw [hd, List.cons_append, List.cons.injEq] at heq
    exact ne_of_isKeyChar hkeyChar (by decide) heq.1

/-! ## Documents -/

/-- A document with a single value, below the header of its section. -/
def entryText (group name value : String) : String :=
  "[" ++ group ++ "]\n" ++ name ++ " = " ++ value ++ "\n"

section

variable {group name value : String}

theorem toList_entryText (group name value tail : String) :
    (entryText group name value ++ tail).toList = '[' :: (group.toList ++ ']' :: '\n' ::
      (name.toList ++ ' ' :: '=' :: ' ' :: (value.toList ++ '\n' :: tail.toList))) := by
  simp [entryText]

theorem readLines_entryText (hgroup : IsBareKey group) (name value tail : String) :
    readLines (entryText group name value ++ tail).toList =
      (readLines (name.toList ++ ' ' :: '=' :: ' ' :: (value.toList ++ '\n' :: tail.toList))).map
        (.header [] group :: ·) := by
  rw [toList_entryText]
  refine readLines_cons ⟨by decide, by decide, by decide, by decide⟩
    (readLine_header hgroup _) rfl ?_
  simp only [List.length_cons, List.length_append]
  omega

theorem dropMark_entryText (group name value tail : String) :
    dropMark (entryText group name value ++ tail).toList =
      (entryText group name value ++ tail).toList := by
  rw [toList_entryText]
  rfl

theorem IsBareKey.ne_momentKey (h : IsBareKey name) : name ≠ momentKey := by
  rintro rfl
  exact Bool.false_ne_true (h.chars '$' (by decide))

theorem build_entry (group name : String) (v : Value) :
    build [.header [] group, .assignment ⟨[], name, v⟩] = some [(group, .table [(name, v)])] := by
  simp [build, spanAssignments, addSections, Draft.assignAll, Draft.define, Draft.assign,
    Draft.within, Keyed.get?, Keyed.put, Keyed.drop, toEntries, Item.toValue]

variable {c : Char} {cs : List Char}

theorem read_entryText (hgroup : IsBareKey group) (hname : IsBareKey name)
    (hstart : value.toList = c :: cs) (hc : isSpace c = false) {v : Value}
    (hvalue : readValue maxDepth (value.toList ++ ['\n']) = some (v, ['\n']))
    (hsettled : settle v = some v) :
    read (entryText group name value) = some [(group, .table [(name, v)])] := by
  obtain ⟨d, ds, hd, hkeyChar⟩ := hname.exists_cons
  have hline : readLine (name.toList ++ ' ' :: '=' :: ' ' :: (value.toList ++ ['\n'])) =
      some (.assignment ⟨[], name, v⟩, ['\n']) := by
    rw [readLine_assignment hname]
    rw [hstart, List.cons_append] at hvalue ⊢
    rw [dropSpace_of_not_isSpace hc, hvalue]
    rfl
  have hend : endLine ['\n'] = some [] := rfl
  have hlines : readLines (entryText group name value ++ "").toList =
      some [.header [] group, .assignment ⟨[], name, v⟩] := by
    rw [readLines_entryText hgroup]
    rw [hd, List.cons_append] at hline ⊢
    rw [String.toList_empty,
      readLines_cons (startsLine_of_isKeyChar hkeyChar) hline hend (by simp), readLines]
    rfl
  rw [read, ← String.append_empty (s := entryText group name value), dropMark_entryText, hlines]
  simp only [Option.bind_eq_bind, Option.bind_some, build_entry, isMoment, hgroup.ne_momentKey,
    decide_false, Bool.false_eq_true, if_false, settleEntries, settle, hname.ne_momentKey,
    hsettled]
  rfl

/-- A document with a value that cannot be read is none, whatever follows. -/
theorem read_entryText_eq_none (hgroup : IsBareKey group) (hname : IsBareKey name)
    (hstart : value.toList = c :: cs) (hc : isSpace c = false) (tail : String)
    (hvalue : readValue maxDepth (value.toList ++ '\n' :: tail.toList) = none) :
    read (entryText group name value ++ tail) = none := by
  obtain ⟨d, ds, hd, hkeyChar⟩ := hname.exists_cons
  have hline : readLine (name.toList ++ ' ' :: '=' :: ' ' ::
      (value.toList ++ '\n' :: tail.toList)) = none := by
    rw [readLine_assignment hname]
    rw [hstart, List.cons_append] at hvalue ⊢
    rw [dropSpace_of_not_isSpace hc, hvalue]
    rfl
  have hlines : readLines (entryText group name value ++ tail).toList = none := by
    rw [readLines_entryText hgroup]
    rw [hd, List.cons_append] at hline ⊢
    rw [readLines_eq_none (startsLine_of_isKeyChar hkeyChar) hline]
    rfl
  rw [read, dropMark_entryText, hlines]
  rfl

theorem read_entryText_text (hgroup : IsBareKey group) (hname : IsBareKey name) (text : String) :
    read (entryText group name (quotedText text)) =
      some [(group, .table [(name, .text text)])] := by
  have hlist : (quotedText text).toList = '"' :: (text.toList.flatMap writtenChar ++ ['"']) := by
    simp [quotedText]
  have hend : ['\n'].head? ≠ some '"' := by decide
  have htext := readText_quotedText text hend
  have hvalue (rest : List Char) : readValue maxDepth ('"' :: rest) =
      (readText ('"' :: rest)).map fun read => (.text (String.ofList read.1), read.2) := rfl
  refine read_entryText hgroup hname hlist (by decide) ?_ rfl
  rw [hlist, List.cons_append] at htext ⊢
  rw [hvalue, htext, Option.map_some]
  dsimp only
  rw [String.ofList_toList]

end

end RehashChart.Toml
