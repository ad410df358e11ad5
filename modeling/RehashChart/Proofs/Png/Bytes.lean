import RehashChart.Png.Bytes

/-! # Bytes at a place

A part that stands in a file can be read back byte by byte, as a whole, or as a number.
-/

namespace RehashChart.Png

/-! ## Lists of bytes -/

def octets (bytes : ByteArray) : List UInt8 := bytes.data.toList

theorem octets_inj {a b : ByteArray} (h : octets a = octets b) : a = b :=
  ByteArray.ext (Array.toList_inj.mp h)

@[simp] theorem length_octets (bytes : ByteArray) : (octets bytes).length = bytes.size := rfl

@[simp] theorem octets_empty : octets .empty = [] := rfl

@[simp] theorem octets_append (a b : ByteArray) : octets (a ++ b) = octets a ++ octets b := by
  simp [octets, ByteArray.data_append]

@[simp] theorem octets_push (bytes : ByteArray) (b : UInt8) :
    octets (bytes.push b) = octets bytes ++ [b] := by
  simp [octets]

theorem octets_extract (bytes : ByteArray) (i j : Nat) :
    octets (bytes.extract i j) = ((octets bytes).take j).drop i := by
  simp [octets, ByteArray.data_extract, List.extract_eq_take_drop, List.drop_take]

theorem byteAt_eq (bytes : ByteArray) (i : Nat) : byteAt bytes i = (octets bytes)[i]?.getD 0 := by
  unfold byteAt octets
  rw [Array.getElem?_toList]
  rfl

/-! ## Parts -/

/-- A part stands in a file from byte `i` on. -/
def HoldsAt (file : ByteArray) (i : Nat) (part : ByteArray) : Prop :=
  ∃ before after, octets file = before ++ (octets part ++ after) ∧ before.length = i

namespace HoldsAt

variable {file part : ByteArray} {i : Nat}

theorem le_size (h : HoldsAt file i part) : i + part.size ≤ file.size := by
  obtain ⟨before, after, hfile, rfl⟩ := h
  rw [← length_octets file, hfile]
  simp

theorem of_append {a b : ByteArray} (h : HoldsAt file i (a ++ b)) :
    HoldsAt file i a ∧ HoldsAt file (i + a.size) b := by
  obtain ⟨before, after, hfile, rfl⟩ := h
  refine ⟨⟨before, octets b ++ after, ?_, rfl⟩, ⟨before ++ octets a, after, ?_, by simp⟩⟩
  · rw [hfile]
    simp
  · rw [hfile]
    simp

theorem byteAt_add (h : HoldsAt file i part) {k : Nat} (hk : k < part.size) :
    byteAt file (i + k) = byteAt part k := by
  obtain ⟨before, after, hfile, rfl⟩ := h
  rw [byteAt_eq, byteAt_eq, hfile, List.getElem?_append_right (by omega),
    Nat.add_sub_cancel_left, List.getElem?_append_left (by simpa using hk)]

theorem byteAt_start (h : HoldsAt file i part) (hsize : 0 < part.size) :
    byteAt file i = byteAt part 0 := h.byteAt_add hsize

theorem extract_eq (h : HoldsAt file i part) : file.extract i (i + part.size) = part := by
  obtain ⟨before, after, hfile, rfl⟩ := h
  apply octets_inj
  rw [octets_extract, hfile, List.take_length_add_append, List.drop_left,
    ← length_octets part, List.take_left]

end HoldsAt

theorem holdsAt_zero (part rest : ByteArray) : HoldsAt (part ++ rest) 0 part :=
  ⟨[], octets rest, by simp, rfl⟩

/-! ## Numbers -/

private theorem getLsbD_byteOf (n s t : UInt32) (i : Nat) (hi : i < 32) :
    ((byteOf n s).toUInt32 <<< t).toBitVec.getLsbD i =
      (decide (t.toNat % 32 ≤ i ∧ i < t.toNat % 32 + 8) &&
        n.toBitVec.getLsbD (s.toNat % 32 + (i - t.toNat % 32))) := by
  have ht : (t.toBitVec % 32#32).toNat = t.toNat % 32 := rfl
  have hs : (s.toBitVec % 32#32).toNat = s.toNat % 32 := rfl
  simp only [byteOf, UInt32.toBitVec_shiftLeft, BitVec.shiftLeft_eq', BitVec.getLsbD_shiftLeft,
    UInt8.toBitVec_toUInt32, UInt32.toBitVec_toUInt8, UInt32.toBitVec_shiftRight,
    BitVec.getLsbD_setWidth, BitVec.ushiftRight_eq', BitVec.getLsbD_ushiftRight]
  change (_ && !decide (i < (t.toBitVec % 32#32).toNat) && (_ && (_ && n.toBitVec.getLsbD (
    (s.toBitVec % 32#32).toNat + _)))) = _
  rw [ht, hs]
  grind

theorem join_fourBytes (n : UInt32) :
    ((byteOf n 24).toUInt32 <<< 24) ||| ((byteOf n 16).toUInt32 <<< 16) |||
      ((byteOf n 8).toUInt32 <<< 8) ||| (byteOf n 0).toUInt32 = n := by
  apply UInt32.eq_of_toBitVec_eq
  apply BitVec.eq_of_getLsbD_eq
  intro i hi
  rw [show (byteOf n 0).toUInt32 = (byteOf n 0).toUInt32 <<< 0 by simp]
  simp only [UInt32.toBitVec_or, BitVec.getLsbD_or, getLsbD_byteOf _ _ _ i hi,
    show (24 : UInt32).toNat % 32 = 24 from rfl, show (16 : UInt32).toNat % 32 = 16 from rfl,
    show (8 : UInt32).toNat % 32 = 8 from rfl, show (0 : UInt32).toNat % 32 = 0 from rfl]
  grind

theorem join_twoBytes {n : UInt32} (hn : n.toNat < 65536) :
    (byteOf n 0).toUInt32 ||| ((byteOf n 8).toUInt32 <<< 8) = n := by
  have hhigh : ∀ i, 16 ≤ i → n.toBitVec.getLsbD i = false := by
    intro i hi
    exact Nat.testBit_lt_two_pow
      (Nat.lt_of_lt_of_le hn (Nat.pow_le_pow_right (by decide : 0 < 2) hi))
  apply UInt32.eq_of_toBitVec_eq
  apply BitVec.eq_of_getLsbD_eq
  intro i hi
  rw [show (byteOf n 0).toUInt32 = (byteOf n 0).toUInt32 <<< 0 by simp]
  simp only [UInt32.toBitVec_or, BitVec.getLsbD_or, getLsbD_byteOf _ _ _ i hi,
    show (8 : UInt32).toNat % 32 = 8 from rfl, show (0 : UInt32).toNat % 32 = 0 from rfl]
  grind

@[simp] theorem size_fourBytes (n : UInt32) : (fourBytes n).size = 4 := rfl

@[simp] theorem size_twoBytes (n : UInt32) : (twoBytes n).size = 2 := rfl

theorem HoldsAt.readFour_eq {file : ByteArray} {i : Nat} {n : UInt32}
    (h : HoldsAt file i (fourBytes n)) : readFour file i = n := by
  rw [readFour, h.byteAt_start (by simp), h.byteAt_add (by simp : 1 < _),
    h.byteAt_add (by simp : 2 < _), h.byteAt_add (by simp : 3 < _)]
  exact join_fourBytes n

theorem HoldsAt.readTwo_eq {file : ByteArray} {i : Nat} {n : UInt32}
    (h : HoldsAt file i (twoBytes n)) (hn : n.toNat < 65536) : readTwo file i = n := by
  rw [readTwo, h.byteAt_start (by simp), h.byteAt_add (by simp : 1 < _)]
  exact join_twoBytes hn

/-! ## Pieces -/

theorem foldl_append (pieces : List ByteArray) (first : ByteArray) :
    pieces.foldl (· ++ ·) first = first ++ concat pieces := by
  induction pieces generalizing first with
  | nil => simp [concat]
  | cons piece pieces ih =>
      rw [concat, List.foldl_cons, List.foldl_cons, ih, ih (.empty ++ piece),
        ByteArray.empty_append, ByteArray.append_assoc]

@[simp] theorem concat_nil : concat [] = .empty := rfl

@[simp] theorem concat_cons (piece : ByteArray) (pieces : List ByteArray) :
    concat (piece :: pieces) = piece ++ concat pieces := by
  rw [concat, List.foldl_cons, ByteArray.empty_append, foldl_append]

@[simp] theorem concat_append (a b : List ByteArray) : concat (a ++ b) = concat a ++ concat b := by
  induction a with
  | nil => simp
  | cons piece a ih => simp [ih, ByteArray.append_assoc]

theorem concat_chopFrom (size : Nat) (bytes : ByteArray) (i : Nat) :
    concat (chopFrom size bytes i) = bytes.extract i bytes.size := by
  fun_induction chopFrom size bytes i with
  | case1 i h ih =>
      rw [concat_cons, ih]
      exact (ByteArray.extract_eq_extract_append_extract _ (by omega) (by omega)).symm
  | case2 i h => simp

theorem size_le_of_mem_chopFrom {size : Nat} {bytes : ByteArray} {i : Nat} {piece : ByteArray}
    (h : piece ∈ chopFrom size bytes i) : piece.size ≤ size + 1 := by
  fun_induction chopFrom size bytes i with
  | case1 i hi ih =>
      rcases List.mem_cons.mp h with rfl | h
      · rw [ByteArray.size_extract]
        omega
      · exact ih h
  | case2 i hi =>
      rw [List.mem_singleton.mp h, ByteArray.size_extract]
      omega

theorem chopFrom_ne_nil (size : Nat) (bytes : ByteArray) (i : Nat) :
    chopFrom size bytes i ≠ [] := by
  unfold chopFrom
  split <;> simp

end RehashChart.Png
