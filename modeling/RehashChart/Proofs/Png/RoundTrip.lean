import RehashChart.Png.Picture
import RehashChart.Proofs.Png.Stored

/-! # Reading written pictures

The rows of a picture come back from the unpacked data, the data from the chunks that it was cut
into, and the size from the header.
-/

namespace RehashChart.Png

/-! ## Chunks -/

theorem size_encode (c : Chunk) : c.encode.size = 12 + c.bytes.size := by
  simp [Chunk.encode, ByteArray.size_append]
  omega

section

variable {file : ByteArray} {i : Nat} {c : Chunk}

/-- Where a chunk stands, its length, its kind, its content and its checksum stand. -/
theorem parts_of_chunk (h : HoldsAt file i c.encode) :
    HoldsAt file i (fourBytes (UInt32.ofNat c.bytes.size)) ∧
      HoldsAt file (i + 4) (fourBytes c.kind ++ c.bytes) ∧
        HoldsAt file (i + 8 + c.bytes.size) (fourBytes (crc (fourBytes c.kind ++ c.bytes))) := by
  obtain ⟨hfront, hcheck⟩ := HoldsAt.of_append h
  obtain ⟨hsize, hbody⟩ := hfront.of_append
  refine ⟨hsize, hbody, ?_⟩
  simp only [ByteArray.size_append, size_fourBytes] at hcheck
  rwa [show i + 8 + c.bytes.size = i + (4 + (4 + c.bytes.size)) by omega]

theorem contentSize_eq (h : HoldsAt file i c.encode) (hsize : c.bytes.size < UInt32.size) :
    contentSize file i = c.bytes.size := by
  rw [contentSize, (parts_of_chunk h).1.readFour_eq, UInt32.toNat_ofNat_of_lt' hsize]

theorem nextChunk_eq (h : HoldsAt file i c.encode) (hsize : c.bytes.size < UInt32.size) :
    nextChunk file i = i + c.encode.size := by
  rw [nextChunk, contentSize_eq h hsize, size_encode]
  omega

theorem chunkAt_eq (h : HoldsAt file i c.encode) (hsize : c.bytes.size < UInt32.size) :
    chunkAt file i = c := by
  obtain ⟨_, hbody, _⟩ := parts_of_chunk h
  obtain ⟨hkind, hbytes⟩ := hbody.of_append
  rw [size_fourBytes, Nat.add_assoc] at hbytes
  rw [chunkAt, hkind.readFour_eq, contentSize_eq h hsize, hbytes.extract_eq]

theorem isIntact_eq (h : HoldsAt file i c.encode) (hsize : c.bytes.size < UInt32.size) :
    isIntact file i = true := by
  obtain ⟨_, hbody, hcheck⟩ := parts_of_chunk h
  have hextract := hbody.extract_eq
  rw [ByteArray.size_append, size_fourBytes,
    show i + 4 + (4 + c.bytes.size) = i + 8 + c.bytes.size by omega] at hextract
  rw [isIntact, contentSize_eq h hsize]
  rw [hextract, hcheck.readFour_eq]
  simp

theorem nextChunk_le (h : HoldsAt file i c.encode) (hsize : c.bytes.size < UInt32.size) :
    ¬file.size < nextChunk file i := by
  rw [nextChunk_eq h hsize]
  have := h.le_size
  omega

end

/-! ## Head and data -/

theorem size_header (p : Picture) : (header p).size = 13 := rfl

theorem ofBytes?_header {p : Picture} (hwidth : p.width ≠ 0) (hheight : p.height ≠ 0) :
    Header.ofBytes? (header p) = some ⟨p.width, p.height, 8, 2, false⟩ := by
  have hholds : HoldsAt (header p) 0 (header p) := by
    simpa using holdsAt_zero (header p) .empty
  obtain ⟨hsizes, hformat⟩ := HoldsAt.of_append hholds
  have hw : HoldsAt (header p) 0 (fourBytes p.width) := hsizes.of_append.1
  have hh : HoldsAt (header p) 4 (fourBytes p.height) := hsizes.of_append.2
  have hbyte : ∀ k, k < 5 → byteAt (header p) (8 + k) = byteAt format k := fun k hk =>
    hformat.byteAt_add hk
  have h8 := hbyte 0 (by decide)
  have h9 := hbyte 1 (by decide)
  have h10 := hbyte 2 (by decide)
  have h11 := hbyte 3 (by decide)
  have h12 := hbyte 4 (by decide)
  simp only [Nat.reduceAdd] at h8 h9 h10 h11 h12
  rw [Header.ofBytes?, hw.readFour_eq, hh.readFour_eq, h8, h9, h10, h11, h12, size_header]
  rw [if_neg (by simp [hwidth, hheight]; decide)]
  rfl

theorem readHead_of_holds {file : ByteArray} {p : Picture} {data rest : ByteArray}
    (hwidth : p.width ≠ 0) (hheight : p.height ≠ 0) (hdata : data.size < UInt32.size)
    (h : HoldsAt file 0 (signature ++ (Chunk.encode ⟨headerKind, header p⟩ ++
      (Chunk.encode ⟨dataKind, data⟩ ++ rest)))) :
    readHead file = some (.ofHeader ⟨p.width, p.height, 8, 2, false⟩, 33) := by
  obtain ⟨hsign, hchunks⟩ := h.of_append
  obtain ⟨hfirst, hlater⟩ := hchunks.of_append
  obtain ⟨hsecond, _⟩ := hlater.of_append
  have hsigned := hsign.extract_eq
  have hsmall : (header p).size < UInt32.size := by
    rw [size_header]
    decide
  have hplace : 0 + signature.size + (Chunk.encode ⟨headerKind, header p⟩).size = 33 := by
    rw [size_encode, size_header]
    rfl
  have hnext := nextChunk_eq hfirst hsmall
  rw [hplace] at hnext hsecond
  rw [Nat.zero_add] at hfirst hsigned hnext
  have hhead : readHeadFrom file 33 (.ofHeader ⟨p.width, p.height, 8, 2, false⟩) =
      some (.ofHeader ⟨p.width, p.height, 8, 2, false⟩, 33) := by
    rw [readHeadFrom, if_neg (nextChunk_le hsecond hdata), chunkAt_eq hsecond hdata]
    rfl
  rw [readHead]
  rw [if_neg]
  · rw [chunkAt_eq hfirst hsmall, hnext, ofBytes?_header hwidth hheight]
    exact hhead
  · rw [hsigned, chunkAt_eq hfirst hsmall, isIntact_eq hfirst hsmall]
    have hle := nextChunk_le hfirst hsmall
    simp [hle]

/-- Data chunks, and a chunk of another kind after them. -/
theorem readData_of_holds {file : ByteArray} {i : Nat} {pieces : List ByteArray} {last : Chunk}
    (hkind : last.kind ≠ dataKind) (hlast : last.bytes.size < UInt32.size)
    (hsizes : ∀ piece ∈ pieces, piece.size < UInt32.size)
    (h : HoldsAt file i (concat (pieces.map fun piece => Chunk.encode ⟨dataKind, piece⟩) ++
      last.encode)) :
    readData file i = some pieces := by
  induction pieces generalizing i with
  | nil =>
      rw [List.map_nil, concat_nil, ByteArray.empty_append] at h
      have hend := h.le_size
      rw [size_encode] at hend
      rw [readData]
      rw [if_neg (by omega), chunkAt_eq h hlast, if_pos hkind]
  | cons piece pieces ih =>
      rw [List.map_cons, concat_cons, ByteArray.append_assoc] at h
      obtain ⟨hfirst, hrest⟩ := h.of_append
      have hpiece := hsizes piece List.mem_cons_self
      have hend := hfirst.le_size
      rw [size_encode] at hend
      rw [readData]
      rw [if_neg (by omega), chunkAt_eq hfirst hpiece, if_neg (by simp),
        if_neg (nextChunk_le hfirst hpiece), isIntact_eq hfirst hpiece, nextChunk_eq hfirst hpiece,
        ih (fun p hp => hsizes p (List.mem_cons_of_mem piece hp)) hrest]
      rfl

/-! ## Rows -/

theorem rowsFrom_append (rowSize : Nat) (pixels : ByteArray) (count y : Nat) (bytes : ByteArray) :
    rowsFrom rowSize pixels count y bytes =
      bytes ++ rowsFrom rowSize pixels count y .empty := by
  induction count generalizing y bytes with
  | zero => simp [rowsFrom]
  | succ count ih =>
      rw [rowsFrom, rowsFrom, ih, ih (y + 1) (_ ++ _)]
      apply octets_inj
      simp

theorem rowsFrom_succ (rowSize : Nat) (pixels : ByteArray) (count y : Nat) :
    rowsFrom rowSize pixels (count + 1) y .empty =
      ⟨#[0]⟩ ++ (pixels.extract (y * rowSize) ((y + 1) * rowSize) ++
        rowsFrom rowSize pixels count (y + 1) .empty) := by
  rw [rowsFrom, rowsFrom_append, ByteArray.append_assoc]
  rfl

theorem size_rowsFrom {rowSize : Nat} {pixels : ByteArray} {count y : Nat}
    (h : (y + count) * rowSize ≤ pixels.size) :
    (rowsFrom rowSize pixels count y .empty).size = count * (1 + rowSize) := by
  induction count generalizing y with
  | zero => simp [rowsFrom]
  | succ count ih =>
      have hlater := ih (y := y + 1) (by rwa [Nat.add_assoc, Nat.add_comm 1])
      have hrow : (y + 1) * rowSize ≤ pixels.size :=
        Nat.le_trans (Nat.mul_le_mul_right rowSize (by omega)) h
      rw [rowsFrom_succ, ByteArray.size_append, ByteArray.size_append, ByteArray.size_extract,
        hlater, Nat.min_eq_left hrow, Nat.succ_mul, Nat.succ_mul, Nat.add_sub_cancel_left]
      have hzero : (⟨#[0]⟩ : ByteArray).size = 1 := rfl
      omega

theorem rowSize_channels (width : Nat) : Layout.channels.rowSize width = 3 * width := by
  simp only [Layout.rowSize, Layout.bitsPerPixel]
  omega

theorem readRows_of_holds {width count y start : Nat} {bytes pixels : ByteArray}
    (above found : ByteArray) (hpixels : (y + count) * (3 * width) ≤ pixels.size)
    (h : HoldsAt bytes start (rowsFrom (3 * width) pixels count y .empty)) :
    ∃ next, readRows .channels width bytes count start above found =
      some (found ++ pixels.extract (y * (3 * width)) ((y + count) * (3 * width)), next) := by
  -- a row that is stored as it is does not depend on the one above it
  induction count generalizing y start above found with
  | zero => exact ⟨start, by simp [readRows]⟩
  | succ count ih =>
      have hrowEnd : (y + 1) * (3 * width) ≤ pixels.size :=
        Nat.le_trans (Nat.mul_le_mul_right (3 * width) (by omega)) hpixels
      have hrowSize :
          (pixels.extract (y * (3 * width)) ((y + 1) * (3 * width))).size = 3 * width := by
        rw [ByteArray.size_extract, Nat.min_eq_left hrowEnd, Nat.succ_mul, Nat.add_sub_cancel_left]
      rw [rowsFrom_succ] at h
      obtain ⟨hzero, hrest⟩ := h.of_append
      obtain ⟨hrow, hlater⟩ := hrest.of_append
      have hfirst : byteAt bytes start = 0 := hzero.byteAt_start (by decide)
      have hend := hrow.le_size
      have hextract := hrow.extract_eq
      have hone : (⟨#[0]⟩ : ByteArray).size = 1 := rfl
      rw [hrowSize, hone] at hend hlater hextract
      have hpixels' : (y + 1 + count) * (3 * width) ≤ pixels.size := by
        rwa [Nat.add_assoc, Nat.add_comm 1]
      obtain ⟨next, hnext⟩ := ih (pixels.extract (y * (3 * width)) ((y + 1) * (3 * width)))
        (found ++ pixels.extract (y * (3 * width)) ((y + 1) * (3 * width))) hpixels' hlater
      refine ⟨next, ?_⟩
      rw [readRows, rowSize_channels, if_neg (by omega), hfirst]
      simp only [Predictor.ofByte?, Predictor.restore, Layout.expand]
      rw [hextract, hnext, ByteArray.append_assoc,
        ← ByteArray.extract_eq_extract_append_extract _ (Nat.mul_le_mul_right _ (by omega))
          (Nat.mul_le_mul_right _ (by omega)), Nat.add_assoc, Nat.add_comm 1]

/-! ## Pictures -/

def piecesOf (p : Picture) : List ByteArray := chopFrom (maxBlock - 1) (pack (rows p)) 0

theorem concat_piecesOf (p : Picture) : concat (piecesOf p) = pack (rows p) := by
  rw [piecesOf, concat_chopFrom, ByteArray.extract_zero_size]

theorem size_lt_of_mem_piecesOf {p : Picture} {piece : ByteArray} (h : piece ∈ piecesOf p) :
    piece.size < UInt32.size :=
  Nat.lt_of_le_of_lt (size_le_of_mem_chopFrom h) (by decide)

theorem encode_eq (p : Picture) :
    encode p = signature ++ (Chunk.encode ⟨headerKind, header p⟩ ++
      (concat ((piecesOf p).map fun piece => Chunk.encode ⟨dataKind, piece⟩) ++
        Chunk.encode ⟨endKind, .empty⟩)) := by
  simp [encode, chunksOf, piecesOf, Function.comp_def]

theorem holdsAt_encode (p : Picture) :
    HoldsAt (encode p) 0 (signature ++ (Chunk.encode ⟨headerKind, header p⟩ ++
      (concat ((piecesOf p).map fun piece => Chunk.encode ⟨dataKind, piece⟩) ++
        Chunk.encode ⟨endKind, .empty⟩))) := by
  rw [← encode_eq]
  simpa using holdsAt_zero (encode p) .empty

theorem readHead_encode {p : Picture} (hwidth : p.width ≠ 0) (hheight : p.height ≠ 0) :
    readHead (encode p) = some (.ofHeader ⟨p.width, p.height, 8, 2, false⟩, 33) := by
  have hholds := holdsAt_encode p
  cases hpieces : piecesOf p with
  | nil => exact absurd hpieces (chopFrom_ne_nil _ _ _)
  | cons piece pieces =>
      have hpiece : piece ∈ piecesOf p := hpieces ▸ List.mem_cons_self
      rw [hpieces, List.map_cons, concat_cons, ByteArray.append_assoc] at hholds
      exact readHead_of_holds hwidth hheight (size_lt_of_mem_piecesOf hpiece) hholds

theorem readPieces_encode (p : Picture) (head : Head) :
    readPieces (encode p) head 33 = some (piecesOf p) := by
  have hdata := (holdsAt_encode p).of_append.2.of_append.2
  have hplace : 0 + signature.size + (Chunk.encode ⟨headerKind, header p⟩).size = 33 := by
    rw [size_encode, size_header]
    rfl
  rw [hplace] at hdata
  have hread := readData_of_holds (by decide) (by decide)
    (fun _ h => size_lt_of_mem_piecesOf h) hdata
  have hkind : (chunkAt (encode p) 33).kind = dataKind := by
    cases hpieces : piecesOf p with
    | nil => exact absurd hpieces (chopFrom_ne_nil _ _ _)
    | cons piece pieces =>
        have hpiece : piece ∈ piecesOf p := hpieces ▸ List.mem_cons_self
        rw [hpieces, List.map_cons, concat_cons, ByteArray.append_assoc] at hdata
        rw [chunkAt_eq hdata.of_append.1 (size_lt_of_mem_piecesOf hpiece)]
  rw [readPieces, if_pos hkind, hread]

theorem unpack_piecesOf {p : Picture} {needed room : Nat} (hneeded : needed ≤ (rows p).size)
    (hroom : (rows p).size ≤ room) : unpack needed room (piecesOf p) = some (rows p) := by
  rw [unpack, concat_piecesOf, inflate_pack hroom]
  simp [Unpacked.isEnough, hneeded]

theorem bytesNeeded_whole {width : Nat} (h : width ≠ 0) (height : Nat) :
    bytesNeeded .channels width height (Pass.all false) = height * (1 + 3 * width) ∧
      bytesExpected .channels width height (Pass.all false) = height * (1 + 3 * width) := by
  simp [Pass.all, bytesNeeded, bytesExpected, Pass.rows, Pass.width, Pass.height, Pass.whole,
    rowSize_channels, h]

theorem decode_encode {p : Picture} (hwhole : p.isWhole = true) (hwidth : p.width ≠ 0)
    (hheight : p.height ≠ 0) : decode (encode p) = some p := by
  have hpixels : p.pixels.size = p.height.toNat * (3 * p.width.toNat) := by
    rw [of_decide_eq_true hwhole, Nat.mul_comm]
  have hle : (0 + p.height.toNat) * (3 * p.width.toNat) ≤ p.pixels.size :=
    Nat.le_of_eq (by rw [hpixels, Nat.zero_add])
  have hrows : (rows p).size = p.height.toNat * (1 + 3 * p.width.toNat) := size_rowsFrom hle
  have hzero : p.width.toNat ≠ 0 := fun h => hwidth (UInt32.toNat_inj.mp h)
  obtain ⟨hneeded, hexpected⟩ := bytesNeeded_whole hzero p.height.toNat
  have hholds : HoldsAt (rows p) 0 (rows p) := by simpa using holdsAt_zero (rows p) .empty
  obtain ⟨next, hread⟩ := readRows_of_holds .empty .empty hle hholds
  rw [Nat.zero_mul, Nat.zero_add, ← hpixels, ByteArray.extract_zero_size,
    ByteArray.empty_append] at hread
  rw [decode, readHead_encode hwidth hheight]
  simp only [bind, Option.bind, Head.ofHeader, Head.layout?, threeChannels]
  rw [readPieces_encode]
  simp only [Bool.false_eq_true, if_false, and_self, if_true]
  rw [hneeded, hexpected, unpack_piecesOf (Nat.le_of_eq hrows.symm) (Nat.le_of_eq hrows)]
  simp only [readPixels, Bool.false_eq_true, if_false]
  rw [hread]
  rfl

end RehashChart.Png
