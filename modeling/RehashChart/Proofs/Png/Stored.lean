import RehashChart.Png.Inflate
import RehashChart.Png.Stored
import RehashChart.Proofs.Png.Bytes

/-! # Unpacking stored data

A block is read back from the byte where it starts, the blocks of a stream one after the other, and
the stream is whole where its checksum ends.
-/

namespace RehashChart.Png

/-! ## One block -/

theorem toNat_blockSize {bytes : ByteArray} (h : bytes.size ≤ maxBlock) :
    (UInt32.ofNat bytes.size).toNat = bytes.size := by
  unfold maxBlock at h
  rw [UInt32.toNat_ofNat']
  omega

theorem toNat_inverted_lt {n : UInt32} (h : n.toNat < 65536) : (n ^^^ 0xFFFF).toNat < 65536 := by
  rw [UInt32.toNat_xor]
  exact Nat.xor_lt_two_pow (n := 16) h (by decide)

theorem size_block (isLast : Bool) (bytes : ByteArray) :
    (block isLast bytes).size = 5 + bytes.size := by
  simp [block, ByteArray.size_append]
  rfl

variable {stream bytes found : ByteArray} {room i : Nat}

theorem readStored_eq
    (h : HoldsAt stream i (twoBytes (UInt32.ofNat bytes.size) ++
      twoBytes (UInt32.ofNat bytes.size ^^^ 0xFFFF) ++ bytes))
    (hsize : bytes.size ≤ maxBlock) (hroom : found.size + bytes.size ≤ room) :
    readStored room stream i found = ⟨found ++ bytes, .ok (8 * (i + 4 + bytes.size))⟩ := by
  have hend := h.le_size
  obtain ⟨hsizes, hbytes⟩ := h.of_append
  obtain ⟨hfirst, hsecond⟩ := hsizes.of_append
  have hnat := toNat_blockSize hsize
  have hlt : (UInt32.ofNat bytes.size).toNat < 65536 := by
    unfold maxBlock at hsize
    omega
  simp only [ByteArray.size_append, size_twoBytes] at hend hbytes hsecond
  unfold readStored
  rw [hfirst.readTwo_eq hlt, hsecond.readTwo_eq (toNat_inverted_lt hlt)]
  dsimp only
  rw [hnat, hbytes.extract_eq]
  have hwhole : (decide (i + 4 + bytes.size ≤ stream.size) &&
      decide (found.size + bytes.size ≤ room)) = true := by
    simp
    omega
  simp [hwhole, show ¬stream.size < i + 4 by omega]

/-- The first byte of a block: its lowest bit says whether it is the last, the next two bits that it
is stored. -/
theorem bits_block {isLast : Bool} (h : HoldsAt stream i (block isLast bytes)) :
    bitAt stream (8 * i) = (if isLast then 1 else 0) ∧ bitsAt stream 2 (8 * i + 1) = 0 := by
  have hbyte : byteAt stream i = if isLast then 1 else 0 := by
    rw [h.byteAt_start (by rw [size_block]; omega), byteAt_eq]
    cases isLast <;> rfl
  have hplace : ∀ k, k < 8 → (8 * i + k) / 8 = i ∧ (8 * i + k) % 8 = k := by
    intro k hk
    omega
  have h0 := hplace 0 (by decide)
  have h1 := hplace 1 (by decide)
  have h2 := hplace 2 (by decide)
  rw [Nat.add_zero] at h0
  simp only [bitsAt, bitAt, Nat.add_assoc, Nat.reduceAdd, h0, h1, h2, hbyte]
  cases isLast <;> decide

theorem readBlock_eq {isLast : Bool} (h : HoldsAt stream i (block isLast bytes))
    (hsize : bytes.size ≤ maxBlock) (hroom : found.size + bytes.size ≤ room) :
    readBlock room stream (8 * i) found = ⟨found ++ bytes, .ok (8 * (i + 5 + bytes.size))⟩ := by
  have hend := h.le_size
  rw [size_block] at hend
  have hbits := (bits_block h).2
  have hinside : HoldsAt stream (i + 1) (twoBytes (UInt32.ofNat bytes.size) ++
      twoBytes (UInt32.ofNat bytes.size ^^^ 0xFFFF) ++ bytes) := by
    have hsplit := h
    unfold block at hsplit
    rw [ByteArray.append_assoc, ByteArray.append_assoc] at hsplit
    rw [ByteArray.append_assoc]
    exact hsplit.of_append.2
  have hnext : nextByte (8 * i + 3) = i + 1 := by
    unfold nextByte
    omega
  rw [readBlock, if_neg (by unfold leastBlock; omega), hbits]
  dsimp only
  rw [hnext, readStored_eq hinside hsize hroom,
    show i + 1 + 4 + bytes.size = i + 5 + bytes.size by omega]
  rfl

/-! ## Streams -/

theorem length_le_size_blocks (pieces : List ByteArray) :
    pieces.length ≤ (concat (blocks pieces)).size := by
  fun_induction blocks pieces with
  | case1 => simp
  | case2 last =>
      rw [concat_cons, ByteArray.size_append, size_block, List.length_singleton]
      omega
  | case3 first rest _ ih =>
      rw [concat_cons, ByteArray.size_append, size_block, List.length_cons]
      omega

theorem readBlocks_eq {pieces : List ByteArray} (hne : pieces ≠ [])
    (hsizes : ∀ piece ∈ pieces, piece.size ≤ maxBlock)
    (h : HoldsAt stream i (concat (blocks pieces))) (found : ByteArray)
    (hroom : found.size + (concat pieces).size ≤ room) (fuel : Nat)
    (hfuel : pieces.length ≤ fuel) :
    readBlocks room stream fuel (8 * i) found =
      ⟨found ++ concat pieces, .ok (8 * (i + (concat (blocks pieces)).size))⟩ := by
  -- `found` holds what the blocks before have given
  induction pieces generalizing i found fuel with
  | nil => exact absurd rfl hne
  | cons piece pieces ih =>
      obtain ⟨fuel, rfl⟩ : ∃ k, fuel = k + 1 := ⟨fuel - 1, by simp at hfuel; omega⟩
      have hpiece := hsizes piece List.mem_cons_self
      rw [concat_cons, ByteArray.size_append] at hroom
      cases pieces with
      | nil =>
          simp only [blocks, concat_cons, concat_nil, ByteArray.append_empty] at h ⊢
          rw [readBlocks, readBlock_eq h hpiece (by omega)]
          dsimp only
          rw [(bits_block h).1, size_block]
          simp [Nat.add_assoc]
      | cons second rest =>
          have hblocks : blocks (piece :: second :: rest) =
              block false piece :: blocks (second :: rest) := rfl
          rw [hblocks, concat_cons] at h
          obtain ⟨hfirst, hrest⟩ := h.of_append
          have hlater := ih (by simp) (fun p hp => hsizes p (List.mem_cons_of_mem piece hp)) hrest
            (found ++ piece) (by rw [ByteArray.size_append]; omega) fuel
            (by simp at hfuel ⊢; omega)
          rw [readBlocks, readBlock_eq hfirst hpiece (by omega)]
          dsimp only
          rw [(bits_block hfirst).1]
          rw [size_block, ← Nat.add_assoc] at hlater
          simp only [Bool.false_eq_true, if_false, Nat.zero_ne_one]
          rw [hlater, hblocks, concat_cons piece, concat_cons (block false piece),
            ByteArray.size_append, size_block, ByteArray.append_assoc]
          congr 3
          omega

/-- A stream of stored data is whole, and unpacks to the data if there is room for it. -/
theorem inflate_pack (hroom : bytes.size ≤ room) :
    inflate room (pack bytes) = some ⟨bytes, true⟩ := by
  have hpieces := concat_chopFrom (maxBlock - 1) bytes 0
  rw [ByteArray.extract_zero_size] at hpieces
  have hne := chopFrom_ne_nil (maxBlock - 1) bytes 0
  have hsizes : ∀ piece ∈ chopFrom (maxBlock - 1) bytes 0, piece.size ≤ maxBlock := fun _ h =>
    size_le_of_mem_chopFrom h
  have hlength := length_le_size_blocks (chopFrom (maxBlock - 1) bytes 0)
  have hpack : pack bytes = streamStart ++ (concat (blocks (chopFrom (maxBlock - 1) bytes 0)) ++
      fourBytes (adler bytes)) := by
    rw [pack, concat_cons, ByteArray.append_assoc]
  generalize chopFrom (maxBlock - 1) bytes 0 = pieces at *
  obtain ⟨stream, hstream⟩ : ∃ stream, stream = pack bytes := ⟨_, rfl⟩
  have hholds : HoldsAt stream 0 (streamStart ++ (concat (blocks pieces) ++
      fourBytes (adler bytes))) := by
    rw [hstream, hpack]
    simpa using holdsAt_zero (streamStart ++ (concat (blocks pieces) ++
      fourBytes (adler bytes))) .empty
  rw [← hstream]
  obtain ⟨hstart, hrest⟩ := hholds.of_append
  obtain ⟨hblocks, hcheck⟩ := hrest.of_append
  have hend := hcheck.le_size
  have hroom' : ByteArray.empty.size + (concat pieces).size ≤ room := by
    simpa [hpieces] using hroom
  have hread := readBlocks_eq hne hsizes hblocks .empty hroom' (8 * stream.size) (by omega)
  have hfirst : byteAt stream 0 = 0x78 := hstart.byteAt_start (by decide)
  have hsecond : byteAt stream 1 = 0x01 := hstart.byteAt_add (by decide : 1 < _)
  have hsize : streamStart.size = 2 := rfl
  rw [hsize] at hread hend
  rw [size_fourBytes] at hend
  have hnext : nextByte (8 * (0 + 2 + (concat (blocks pieces)).size)) + 4 ≤ stream.size := by
    unfold nextByte
    omega
  have hmethod : isStreamStart 0x78 0x01 = true := by decide
  rw [inflate, if_neg (by omega), hfirst, hsecond, hmethod]
  simp only [Bool.not_true, Bool.false_eq_true, if_false]
  rw [show (16 : Nat) = 8 * (0 + 2) from rfl, hread]
  simp [hnext, hpieces]

end RehashChart.Png
