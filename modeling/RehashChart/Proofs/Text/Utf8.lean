import RehashChart.Text.Utf8

/-! # How far bytes are text

Where a character can be decoded does not depend on where a part ends; so the first place without
one ends the longest part that is text.
-/

namespace RehashChart.Text

/-- The first `n` bytes are text, and no more of them. -/
structure IsLongestText (bytes : ByteArray) (n : Nat) : Prop where
  le_size : n ≤ bytes.size
  isText : (bytes.extract 0 n).IsValidUTF8
  longest : ∀ k ≤ bytes.size, (bytes.extract 0 k).IsValidUTF8 → k ≤ n

theorem IsLongestText.unique {bytes : ByteArray} {n k : Nat} (hn : IsLongestText bytes n)
    (hk : IsLongestText bytes k) : n = k :=
  Nat.le_antisymm (hk.longest n hn.le_size hn.isText) (hn.longest k hk.le_size hk.isText)

variable {bytes : ByteArray} {i k : Nat} {c : Char}

theorem extract_of_decodeChar (h : bytes.utf8DecodeChar? i = some c) :
    bytes.extract i (i + c.utf8Size) = [c].utf8Encode := by
  have hle := ByteArray.le_size_of_utf8DecodeChar?_eq_some h
  rw [ByteArray.utf8DecodeChar?_eq_utf8DecodeChar?_extract] at h
  have hchar := String.toByteArray_utf8EncodeChar_of_utf8DecodeChar?_eq_some h
  rw [ByteArray.extract_extract, Nat.add_zero, Nat.min_eq_left hle] at hchar
  rw [List.utf8Encode_singleton, hchar]

theorem exists_decodeChar (hi : i < k) (hk : k ≤ bytes.size)
    (h : (bytes.extract i k).IsValidUTF8) :
    ∃ c, bytes.utf8DecodeChar? i = some c ∧ i + c.utf8Size ≤ k ∧
      (bytes.extract (i + c.utf8Size) k).IsValidUTF8 := by
  have hsize : (bytes.extract i k).size = k - i := by
    rw [ByteArray.size_extract, Nat.min_eq_left hk]
  obtain ⟨text, htext⟩ := id h
  cases text with
  | nil =>
      rw [htext] at hsize
      change 0 = k - i at hsize
      omega
  | cons c text =>
      have hfirst : (bytes.extract i k).utf8DecodeChar? 0 = some c := by
        rw [htext, List.utf8DecodeChar?_utf8Encode_cons]
      have hle := ByteArray.le_size_of_utf8DecodeChar?_eq_some hfirst
      have hwhole := ByteArray.utf8DecodeChar?_append_eq_some hfirst (bytes.extract k bytes.size)
      rw [← ByteArray.extract_eq_extract_append_extract k (Nat.le_of_lt hi) hk,
        ← ByteArray.utf8DecodeChar?_eq_utf8DecodeChar?_extract] at hwhole
      refine ⟨c, hwhole, by omega, ?_⟩
      rw [ByteArray.extract_eq_extract_append_extract (i + c.utf8Size) (by omega) (by omega),
        extract_of_decodeChar hwhole] at h
      exact ByteArray.isValidUTF8_utf8Encode_singleton_append_iff.mp h

theorem validUpToFrom_spec (hi : i ≤ bytes.size) :
    i ≤ validUpToFrom bytes i ∧ validUpToFrom bytes i ≤ bytes.size ∧
      (bytes.extract i (validUpToFrom bytes i)).IsValidUTF8 ∧
        ∀ k, i ≤ k → k ≤ bytes.size → (bytes.extract i k).IsValidUTF8 →
          k ≤ validUpToFrom bytes i := by
  fun_induction validUpToFrom bytes i with
  | case1 i hless hnone =>
      refine ⟨Nat.le_refl i, hi, ?_, ?_⟩
      · rw [ByteArray.extract_same]
        exact ByteArray.isValidUTF8_empty
      · intro k hik hk hvalid
        rcases Nat.lt_or_ge i k with hmore | hmore
        · obtain ⟨c, hsome, _⟩ := exists_decodeChar hmore hk hvalid
          rw [hnone] at hsome
          cases hsome
        · exact hmore
  | case2 i hless c hsome ih =>
      have hle := ByteArray.le_size_of_utf8DecodeChar?_eq_some hsome
      have hpos := c.utf8Size_pos
      obtain ⟨hlow, hhigh, hvalid, hlongest⟩ := ih hle
      refine ⟨by omega, hhigh, ?_, ?_⟩
      · rw [ByteArray.extract_eq_extract_append_extract (i + c.utf8Size) (by omega) hlow,
          extract_of_decodeChar hsome]
        exact ByteArray.isValidUTF8_utf8Encode_singleton_append_iff.mpr hvalid
      · intro k hik hk hvalid
        rcases Nat.lt_or_ge i k with hmore | hmore
        · obtain ⟨c', hsome', hle', hrest⟩ := exists_decodeChar hmore hk hvalid
          cases hsome.symm.trans hsome'
          exact hlongest k hle' hk hrest
        · omega
  | case3 i hnot =>
      refine ⟨Nat.le_refl i, hi, ?_, fun k _ hk _ => by omega⟩
      rw [ByteArray.extract_same]
      exact ByteArray.isValidUTF8_empty

theorem validUpTo_isLongestText (bytes : ByteArray) : IsLongestText bytes (validUpTo bytes) := by
  obtain ⟨_, hle, hvalid, hlongest⟩ := validUpToFrom_spec (Nat.zero_le bytes.size)
  exact ⟨hle, hvalid, fun k => hlongest k (Nat.zero_le k)⟩

theorem exists_decode_iff : (∃ text, decode bytes = .ok text) ↔ bytes.IsValidUTF8 := by
  unfold decode String.fromUTF8?
  by_cases h : bytes.IsValidUTF8 <;> simp [h]

/-- Bytes are refused only if they are not text, and with the length of their longest text. -/
theorem decode_eq_error_iff {n : Nat} :
    decode bytes = .error n ↔ ¬bytes.IsValidUTF8 ∧ IsLongestText bytes n := by
  constructor
  · intro h
    refine ⟨fun hvalid => ?_, ?_⟩
    · obtain ⟨text, htext⟩ := exists_decode_iff.mpr hvalid
      rw [h] at htext
      cases htext
    · unfold decode at h
      split at h <;> cases h
      exact validUpTo_isLongestText bytes
  · rintro ⟨hinvalid, hlongest⟩
    rw [hlongest.unique (validUpTo_isLongestText bytes)]
    simp [decode, String.fromUTF8?, hinvalid]

end RehashChart.Text
