import RehashChart.Proofs.Settings.Fields
import RehashChart.Proofs.Text.Integers

/-! # What given values mean

Which values a setting takes, and what it becomes by them, is said here for each kind of setting,
and what a variable's text and a document's value stand for before; what is executed is then shown
to do just that.
-/

namespace RehashChart.Settings

/-! ## Texts -/

/-- A text says yes or no by one of three words each, in letters of any case. -/
def Says (text : String) (b : Bool) : Prop :=
  Text.lowercase text ∈ if b then ["true", "on", "yes"] else ["false", "off", "no"]

theorem readYesNo_eq_some_iff {text : String} {b : Bool} :
    readYesNo (Text.lowercase text) = some b ↔ Says text b := by
  unfold readYesNo Says
  generalize Text.lowercase text = word
  constructor
  · intro h
    split at h
    · cases h
      simpa using ‹_›
    · split at h
      · cases h
        simpa using ‹_›
      · cases h
  · intro h
    cases b with
    | true =>
        rw [if_pos (by simpa using h)]
    | false =>
        have hword : word = "false" ∨ word = "off" ∨ word = "no" := by simpa using h
        rw [if_neg, if_pos hword]
        rcases hword with rfl | rfl | rfl <;> decide

theorem readYesNo_eq_none_iff {text : String} :
    readYesNo (Text.lowercase text) = none ↔ ∀ b, ¬Says text b := by
  rw [Option.eq_none_iff_forall_ne_some]
  exact forall_congr' fun b => not_congr readYesNo_eq_some_iff

/-- The value that a variable's text stands for. -/
inductive Reads (text : String) : Leaf → Prop where
  | boolean {b : Bool} : Text.lowercase text = toString b → Reads text (.boolean b)
  | integer {d : Int} :
      (∀ b : Bool, Text.lowercase text ≠ toString b) →
      Text.SignedNumeral text.toList d → -(2 ^ 63) ≤ d → d < 2 ^ 63 → Reads text (.integer d)
  | float {x : Binary64} :
      (∀ b : Bool, Text.lowercase text ≠ toString b) →
      (∀ d : Int, -(2 ^ 63) ≤ d → d < 2 ^ 63 → ¬Text.SignedNumeral text.toList d) →
      Binary64.read text.toList = some x → Reads text (.float x)
  | text :
      (∀ b : Bool, Text.lowercase text ≠ toString b) →
      (∀ d : Int, -(2 ^ 63) ≤ d → d < 2 ^ 63 → ¬Text.SignedNumeral text.toList d) →
      Binary64.read text.toList = none → Reads text (.text text)

theorem leafOfText_of_boolean {text : String} {b : Bool} (h : Text.lowercase text = toString b) :
    leafOfText text = .boolean b := by
  unfold leafOfText
  rw [h]
  cases b <;> rfl

theorem leafOfText_of_not_boolean {text : String}
    (h : ∀ b : Bool, Text.lowercase text ≠ toString b) :
    leafOfText text =
      match Text.readInt64 text.toList with
      | some d => .integer d
      | none =>
          match Binary64.read text.toList with
          | some x => .float x
          | none => .text text := by
  have htrue : Text.lowercase text ≠ "true" := h true
  have hfalse : Text.lowercase text ≠ "false" := h false
  unfold leafOfText
  exact (if_neg htrue).trans (if_neg hfalse)

theorem readInt64_eq_none_iff {text : String} :
    Text.readInt64 text.toList = none ↔
      ∀ d : Int, -(2 ^ 63) ≤ d → d < 2 ^ 63 → ¬Text.SignedNumeral text.toList d := by
  rw [Option.eq_none_iff_forall_ne_some]
  refine forall_congr' fun d => ?_
  rw [Ne, Text.readInt64_eq_some_iff]
  tauto

theorem reads_leafOfText (text : String) : Reads text (leafOfText text) := by
  by_cases hword : ∃ b : Bool, Text.lowercase text = toString b
  · obtain ⟨b, hb⟩ := hword
    rw [leafOfText_of_boolean hb]
    exact .boolean hb
  · have hno := not_exists.mp hword
    rw [leafOfText_of_not_boolean hno]
    cases hinteger : Text.readInt64 text.toList with
    | some d =>
        obtain ⟨hd, hlow, hhigh⟩ := Text.readInt64_eq_some_iff.mp hinteger
        exact .integer hno hd hlow hhigh
    | none =>
        have hnone := readInt64_eq_none_iff.mp hinteger
        cases hread : Binary64.read text.toList with
        | some x => exact .float hno hnone hread
        | none => exact .text hno hnone hread

theorem leafOfText_eq_iff {text : String} {value : Leaf} :
    leafOfText text = value ↔ Reads text value := by
  constructor
  · rintro rfl
    exact reads_leafOfText text
  · intro h
    cases h with
    | boolean hb => exact leafOfText_of_boolean hb
    | integer hno hd hlow hhigh =>
        rw [leafOfText_of_not_boolean hno, Text.readInt64_eq_some_iff.mpr ⟨hd, hlow, hhigh⟩]
    | float hno hnone hread =>
        rw [leafOfText_of_not_boolean hno, readInt64_eq_none_iff.mpr hnone, hread]
    | text hno hnone hread =>
        rw [leafOfText_of_not_boolean hno, readInt64_eq_none_iff.mpr hnone, hread]

/-- The value without parts that a document's value stands for. -/
inductive Stands : Toml.Value → Leaf → Prop where
  | text (s : String) : Stands (.text s) (.text s)
  | integer (d : Int) : Stands (.integer d) (.integer d)
  | float (x : Binary64) : Stands (.float x) (.float x)
  | boolean (b : Bool) : Stands (.boolean b) (.boolean b)
  | moment (m : Toml.Moment) : Stands (.moment m) (.text m.render)

theorem treeOf_eq_leaf_iff {origin : Origin} {value : Toml.Value} {place : Option Origin}
    {leaf : Leaf} :
    treeOf origin value = .leaf place leaf ↔ place = some origin ∧ Stands value leaf := by
  constructor
  · intro h
    cases value <;> simp only [treeOf, Tree.leaf.injEq, reduceCtorEq] at h <;>
      obtain ⟨rfl, rfl⟩ := h <;> exact ⟨rfl, by constructor⟩
  · rintro ⟨rfl, h⟩
    cases h <;> rfl

/-! ## Kinds of settings -/

inductive MeansText : Leaf → String → Prop where
  | text (s : String) : MeansText (.text s) s
  | boolean (b : Bool) : MeansText (.boolean b) (toString b)
  | integer (d : Int) : MeansText (.integer d) (toString d)
  | float (x : Binary64) : MeansText (.float x) x.plainText

inductive MeansNumber : Leaf → Binary64 → Prop where
  | float (x : Binary64) : MeansNumber (.float x) x
  | integer (d : Int) : MeansNumber (.integer d) (.ofInt d)
  | boolean (b : Bool) : MeansNumber (.boolean b) (if b then 1 else 0)
  | word {text : String} {b : Bool} : Says text b → MeansNumber (.text text) (if b then 1 else 0)
  | numeral {text : String} {x : Binary64} :
      (∀ b, ¬Says text b) → Binary64.read text.toList = some x → MeansNumber (.text text) x

/-- The natural number of 32 bits that a setting becomes by a value. A fraction is rounded, a half
away from zero, and what is less than zero counts as zero. -/
inductive MeansWord : Leaf → UInt32 → Prop where
  | integer {d : Int} {w : UInt32} : (w.toNat : Int) = d → MeansWord (.integer d) w
  | float {x : Binary64} {q : Rat} {w : UInt32} :
      x.HasValue q → (w.toNat : Int) = max 0 (Binary64.roundAway q) → MeansWord (.float x) w
  | nan : MeansWord (.float .nan) 0
  | infinity : MeansWord (.float (.infinity true)) 0
  | boolean (b : Bool) : MeansWord (.boolean b) (if b then 1 else 0)
  | word {text : String} {b : Bool} : Says text b → MeansWord (.text text) (if b then 1 else 0)
  | numeral {text : String} {w : UInt32} :
      (∀ b, ¬Says text b) → Text.Numeral text.toList w.toNat → MeansWord (.text text) w

/-- Yes or no, as a value says it. Of the numbers only zero is a no. -/
inductive MeansBool : Leaf → Bool → Prop where
  | boolean (b : Bool) : MeansBool (.boolean b) b
  | integer (d : Int) : MeansBool (.integer d) (d ≠ 0)
  | zero {x : Binary64} : x.HasValue 0 → MeansBool (.float x) false
  | other {x : Binary64} : ¬x.HasValue 0 → MeansBool (.float x) true
  | word {text : String} {b : Bool} : Says text b → MeansBool (.text text) b
  | one {text : String} : Text.lowercase text = "1" → MeansBool (.text text) true
  | nought {text : String} : Text.lowercase text = "0" → MeansBool (.text text) false

/-- A kind of setting takes what has no parts and means something for it. -/
theorem takeLeaf_eq_ok_iff {α : Type} {expected : Expected} {tree : Tree}
    {read : Option Origin → Leaf → Except Mismatch α} {a : α} {Means : Leaf → Prop}
    (hmissing : ¬Means .missing)
    (hread : ∀ origin value, value ≠ .missing → (read origin value = .ok a ↔ Means value)) :
    takeLeaf expected tree read = .ok a ↔
      ∃ origin value, tree = .leaf origin value ∧ Means value := by
  constructor
  · intro h
    cases tree with
    | leaf origin value =>
        cases value with
        | missing => cases h
        | _ => exact ⟨origin, _, rfl, (hread origin _ Leaf.noConfusion).mp h⟩
    | list _ _ => cases h
    | table _ _ => cases h
  · rintro ⟨origin, value, rfl, h⟩
    cases value with
    | missing => exact absurd h hmissing
    | _ => exact (hread origin _ Leaf.noConfusion).mpr h

/-- The words for yes and no come first in a text, whatever else it is read as. -/
theorem yesNo_eq_ok_iff {α : Type} {text : String} {ofWord : Bool → α} {other : Except Mismatch α}
    {a : α} :
    (match readYesNo (Text.lowercase text) with
      | some b => Except.ok (ofWord b)
      | none => other) = .ok a ↔
      (∃ b, Says text b ∧ ofWord b = a) ∨ (∀ b, ¬Says text b) ∧ other = .ok a := by
  cases hword : readYesNo (Text.lowercase text) with
  | some b =>
      have hyes := readYesNo_eq_some_iff.mp hword
      constructor
      · intro h
        exact .inl ⟨b, hyes, Except.ok.inj h⟩
      · rintro (⟨c, hc, h⟩ | ⟨hno, _⟩)
        · cases hword.symm.trans (readYesNo_eq_some_iff.mpr hc)
          exact congrArg Except.ok h
        · exact absurd hyes (hno b)
  | none =>
      have hno := readYesNo_eq_none_iff.mp hword
      constructor
      · exact fun h => .inr ⟨hno, h⟩
      · rintro (⟨c, hc, _⟩ | ⟨_, h⟩)
        · exact absurd hc (hno c)
        · exact h

section

variable {tree : Tree}

theorem takeText_eq_ok_iff {s : String} :
    takeText tree = .ok s ↔ ∃ origin value, tree = .leaf origin value ∧ MeansText value s := by
  refine takeLeaf_eq_ok_iff (fun h => nomatch h) fun origin value hvalue => ?_
  constructor
  · intro h
    cases value with
    | missing => exact absurd rfl hvalue
    | boolean b =>
        cases h
        cases b
        · exact .boolean false
        · exact .boolean true
    | integer d =>
        cases h
        exact .integer d
    | float x =>
        cases h
        exact .float x
    | text t =>
        cases h
        exact .text _
  · intro h
    cases h with
    | boolean b => cases b <;> rfl
    | _ => rfl

theorem ofNat_ofBool (b : Bool) : Binary64.ofNat (ofBool b) = if b then 1 else 0 := by
  cases b <;> rfl

theorem meansNumber_text_iff {text : String} {x : Binary64} :
    MeansNumber (.text text) x ↔
      (∃ b, Says text b ∧ Binary64.ofNat (ofBool b) = x) ∨
        (∀ b, ¬Says text b) ∧ Binary64.read text.toList = some x := by
  constructor
  · intro h
    cases h with
    | word hyes => exact .inl ⟨_, hyes, ofNat_ofBool _⟩
    | numeral hno hread => exact .inr ⟨hno, hread⟩
  · rintro (⟨b, hyes, rfl⟩ | ⟨hno, hread⟩)
    · rw [ofNat_ofBool]
      exact .word hyes
    · exact .numeral hno hread

theorem takeNumber_eq_ok_iff {x : Binary64} :
    takeNumber tree = .ok x ↔ ∃ origin value, tree = .leaf origin value ∧ MeansNumber value x := by
  refine takeLeaf_eq_ok_iff (fun h => nomatch h) fun origin value hvalue => ?_
  cases value with
  | missing => exact absurd rfl hvalue
  | boolean b =>
      dsimp only
      rw [Except.ok.injEq, ofNat_ofBool]
      constructor
      · rintro rfl
        exact .boolean b
      · intro h
        cases h
        rfl
  | integer d =>
      constructor
      · intro h
        cases h
        exact .integer d
      · intro h
        cases h
        rfl
  | float y =>
      constructor
      · intro h
        cases h
        exact .float _
      · intro h
        cases h
        rfl
  | text t =>
      refine yesNo_eq_ok_iff.trans (Iff.trans ?_ meansNumber_text_iff.symm)
      cases Binary64.read t.toList <;> simp

theorem takeWord_eq_ok_iff_takeNatural {w : UInt32} :
    takeWord tree = .ok w ↔ takeNatural tree = .ok w.toNat := by
  unfold takeWord
  constructor
  · intro h
    obtain ⟨n, hn, h⟩ := bind_eq_ok.mp h
    split at h
    · rename_i hless
      cases h
      rw [hn, UInt32.toNat_ofNat_of_lt' hless]
    · cases h
  · intro h
    refine bind_eq_ok.mpr ⟨w.toNat, h, ?_⟩
    rw [if_pos w.toNat_lt, UInt32.ofNat_toNat]

theorem toNat_ofBool (b : Bool) : (if b then 1 else 0 : UInt32).toNat = ofBool b := by
  cases b <;> rfl

theorem toNat64_round_eq_iff {x : Binary64} {w : UInt32} :
    x.round.toNat64 = w.toNat ↔ MeansWord (.float x) w := by
  have hsize : w.toNat < 2 ^ 32 := w.toNat_lt
  have hzero : (0 : Nat) = w.toNat ↔ w = 0 := by
    rw [← UInt32.toNat_inj, UInt32.toNat_zero]
    exact eq_comm
  cases hx : x with
  | nan =>
      refine hzero.trans ⟨?_, ?_⟩
      · rintro rfl
        exact .nan
      · intro h
        cases h with
        | float hvalue _ => exact absurd hvalue Binary64.not_hasValue_nan
        | nan => rfl
  | infinity negative =>
      cases negative with
      | true =>
          refine hzero.trans ⟨?_, ?_⟩
          · rintro rfl
            exact .infinity
          · intro h
            cases h with
            | float hvalue _ => exact absurd hvalue (Binary64.not_hasValue_infinity true)
            | infinity => rfl
      | false =>
          have hmost : (Binary64.infinity false).round.toNat64 = UInt64.size - 1 := by decide
          rw [hmost]
          refine iff_of_false (by simp only [UInt64.size]; omega) fun h => ?_
          cases h with
          | float hvalue _ => exact absurd hvalue (Binary64.not_hasValue_infinity false)
  | finite s m e hcanonical =>
      have hvalue : (Binary64.finite s m e hcanonical).HasValue
          (Binary64.finite s m e hcanonical).toRat := ⟨rfl, rfl⟩
      rw [hvalue.toNat64_round]
      have hclamp (r : Int) : (max 0 (min ((UInt64.size : Int) - 1) r)).toNat = w.toNat ↔
          (w.toNat : Int) = max 0 r := by
        simp only [UInt64.size]
        omega
      rw [hclamp]
      constructor
      · exact fun h => .float hvalue h
      · intro h
        cases h with
        | float hother hw => rwa [hvalue.unique hother]

theorem meansWord_text_iff {text : String} {w : UInt32} :
    MeansWord (.text text) w ↔
      (∃ b, Says text b ∧ ofBool b = w.toNat) ∨
        (∀ b, ¬Says text b) ∧ Text.readNat64 text.toList = some w.toNat := by
  have hsize : w.toNat < UInt64.size := Nat.lt_trans w.toNat_lt (by decide)
  rw [Text.readNat64_eq_some_iff]
  constructor
  · intro h
    cases h with
    | word hyes => exact .inl ⟨_, hyes, (toNat_ofBool _).symm⟩
    | numeral hno hnumeral => exact .inr ⟨hno, hnumeral, hsize⟩
  · rintro (⟨b, hyes, hb⟩ | ⟨hno, hnumeral, _⟩)
    · rw [← toNat_ofBool, UInt32.toNat_inj] at hb
      exact hb ▸ .word hyes
    · exact .numeral hno hnumeral

theorem takeWord_eq_ok_iff {w : UInt32} :
    takeWord tree = .ok w ↔ ∃ origin value, tree = .leaf origin value ∧ MeansWord value w := by
  rw [takeWord_eq_ok_iff_takeNatural]
  refine takeLeaf_eq_ok_iff (fun h => nomatch h) fun origin value hvalue => ?_
  cases value with
  | missing => exact absurd rfl hvalue
  | boolean b =>
      dsimp only
      rw [Except.ok.injEq, ← toNat_ofBool, UInt32.toNat_inj]
      constructor
      · rintro rfl
        exact .boolean b
      · intro h
        cases h
        rfl
  | integer d =>
      have hinteger : MeansWord (.integer d) w ↔ (w.toNat : Int) = d := by
        constructor
        · intro h
          cases h with
          | integer hw => exact hw
        · exact .integer
      rw [hinteger]
      dsimp only
      split
      · rw [Except.ok.injEq]
        omega
      · simp only [reduceCtorEq, false_iff]
        omega
  | float x =>
      dsimp only
      rw [Except.ok.injEq, toNat64_round_eq_iff]
  | text t =>
      refine yesNo_eq_ok_iff.trans (Iff.trans ?_ meansWord_text_iff.symm)
      cases Text.readNat64 t.toList <;> simp

theorem meansBool_text_iff {text : String} {b : Bool} :
    MeansBool (.text text) b ↔
      Says text b ∨ Text.lowercase text = if b then "1" else "0" := by
  constructor
  · intro h
    cases h with
    | word hyes => exact .inl hyes
    | one hone => exact .inr hone
    | nought hnought => exact .inr hnought
  · rintro (hyes | hdigit)
    · exact .word hyes
    · cases b
      · exact .nought hdigit
      · exact .one hdigit

theorem digit_eq_ok_iff {word : String} {e : Mismatch} {b : Bool} :
    (if word = "1" then .ok true else if word = "0" then .ok false else .error e) =
        (.ok b : Except Mismatch Bool) ↔
      word = if b then "1" else "0" := by
  by_cases hone : word = "1"
  · subst hone
    cases b <;> simp
  · by_cases hzero : word = "0"
    · subst hzero
      cases b <;> simp
    · cases b <;> simp [hone, hzero]

/-- A digit is none of the words. -/
theorem not_says_of_digit {text : String} {b : Bool}
    (h : Text.lowercase text = if b then "1" else "0") (c : Bool) : ¬Says text c := by
  unfold Says
  rw [h]
  cases b <;> cases c <;> decide

theorem takeBool_eq_ok_iff {b : Bool} :
    takeBool tree = .ok b ↔ ∃ origin value, tree = .leaf origin value ∧ MeansBool value b := by
  refine takeLeaf_eq_ok_iff (fun h => nomatch h) fun origin value hvalue => ?_
  cases value with
  | missing => exact absurd rfl hvalue
  | boolean c =>
      constructor
      · intro h
        cases h
        exact .boolean _
      · intro h
        cases h
        rfl
  | integer d =>
      constructor
      · intro h
        cases h
        exact .integer d
      · intro h
        cases h
        rfl
  | float x =>
      dsimp only
      rw [Except.ok.injEq]
      cases hzero : x.eq 0 with
      | true =>
          have hvalue := Binary64.eq_zero_iff.mp hzero
          constructor
          · rintro rfl
            exact .zero hvalue
          · intro h
            cases h with
            | zero _ => rfl
            | other hother => exact absurd hvalue hother
      | false =>
          have hother : ¬x.HasValue 0 := by
            rw [← Binary64.eq_zero_iff, hzero]
            exact Bool.false_ne_true
          constructor
          · rintro rfl
            exact .other hother
          · intro h
            cases h with
            | zero hvalue => exact absurd hvalue hother
            | other _ => rfl
  | text t =>
      refine yesNo_eq_ok_iff.trans (Iff.trans ?_ meansBool_text_iff.symm)
      rw [digit_eq_ok_iff]
      constructor
      · rintro (⟨c, hyes, rfl⟩ | ⟨_, hdigit⟩)
        · exact .inl hyes
        · exact .inr hdigit
      · rintro (hyes | hdigit)
        · exact .inl ⟨b, hyes, rfl⟩
        · exact .inr ⟨not_says_of_digit hdigit, hdigit⟩

end

/-! ## Fields -/

namespace Field

def Means : (f : Field) → Leaf → f.Value → Prop
  | input | output | level | file => MeansText
  | width | height => MeansNumber
  | dpi => MeansWord
  | shown => MeansBool

theorem take_eq_ok_iff {f : Field} {tree : Tree} {v : f.Value} :
    f.take tree = .ok v ↔ ∃ origin value, tree = .leaf origin value ∧ f.Means value v := by
  cases f with
  | input | output | level | file => exact takeText_eq_ok_iff
  | width | height => exact takeNumber_eq_ok_iff
  | dpi => exact takeWord_eq_ok_iff
  | shown => exact takeBool_eq_ok_iff

end Field

end RehashChart.Settings
