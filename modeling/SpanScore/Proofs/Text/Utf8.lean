import SpanScore.Text.Utf8

/-!
# Decoding is the inverse of encoding

Decoding the bytes of a text reads all of its characters and stops at its end, and a decoding that
stops at the end of its bytes has read a text with just these bytes.
-/

namespace SpanScore.Utf8

/-- The bytes of a list of characters. -/
theorem encode_ofList (chars : List Char) :
    encode (String.ofList chars) = chars.utf8Encode.data.toList := by
  rw [encode, String.toUTF8_eq_toByteArray, String.toByteArray_ofList]

theorem utf8DecodeChar?_append_cons (before : ByteArray) (char : Char) (chars : List Char) :
    (before ++ (char :: chars).utf8Encode).utf8DecodeChar? before.size = some char := by
  rw [ByteArray.utf8DecodeChar?_eq_utf8DecodeChar?_extract, ByteArray.size_append,
    ByteArray.extract_append_eq_right rfl rfl, List.utf8DecodeChar?_utf8Encode_cons]

/-- From where a text starts, all of its characters are read. -/
theorem decodeFrom_append (before : ByteArray) (chars read : List Char) :
    decodeFrom (before ++ chars.utf8Encode) before.size read =
      ⟨read.reverse ++ chars, (before ++ chars.utf8Encode).size⟩ := by
  induction chars generalizing before read with
  | nil =>
    have ended : before.utf8DecodeChar? before.size = none := by
      rw [Option.eq_none_iff_forall_ne_some]
      intro char found
      have bound := ByteArray.le_size_of_utf8DecodeChar?_eq_some found
      have pos := char.utf8Size_pos
      omega
    rw [List.utf8Encode_nil, ByteArray.append_empty, decodeFrom]
    split
    · simp
    · simp_all
  | cons char chars ih =>
    have found := utf8DecodeChar?_append_cons before char chars
    have longer : (before ++ [char].utf8Encode).size = before.size + char.utf8Size := by
      rw [ByteArray.size_append, List.utf8Encode_singleton, List.size_toByteArray,
        String.length_utf8EncodeChar]
    have shifted := ih (before ++ [char].utf8Encode) (char :: read)
    rw [longer, ByteArray.append_assoc, ← List.utf8Encode_cons] at shifted
    rw [decodeFrom]
    split
    · simp_all
    · next other same =>
      rw [found, Option.some.injEq] at same
      rw [← same, shifted, List.reverse_cons, List.append_assoc, List.singleton_append]

/-- Decoding the bytes of a text gives its characters and stops at its end. -/
theorem decodeStart_encode (text : String) :
    decodeStart (encode text) = ⟨text.toList, (encode text).length⟩ := by
  have whole := decodeFrom_append ByteArray.empty text.toList []
  rw [ByteArray.empty_append, String.utf8Encode_toList] at whole
  exact whole

/-- What is read is the text of the bytes that were passed. -/
theorem decodeFrom_extract (bytes : ByteArray) (start : Nat) (read : List Char) :
    start ≤ (decodeFrom bytes start read).stop ∧
      ∃ chars, (decodeFrom bytes start read).chars = read.reverse ++ chars ∧
        bytes.extract start (decodeFrom bytes start read).stop = chars.utf8Encode := by
  fun_induction decodeFrom bytes start read with
  | case1 start read ended => exact ⟨Nat.le_refl start, [], by simp⟩
  | case2 start read char found ih =>
    obtain ⟨bound, chars, chars_eq, extract_eq⟩ := ih
    refine ⟨by omega, char :: chars, by simp [chars_eq], ?_⟩
    have first : bytes.extract start (start + char.utf8Size) = [char].utf8Encode := by
      have within := ByteArray.le_size_of_utf8DecodeChar?_eq_some found
      rw [ByteArray.utf8DecodeChar?_eq_utf8DecodeChar?_extract] at found
      rw [List.utf8Encode_singleton,
        String.toByteArray_utf8EncodeChar_of_utf8DecodeChar?_eq_some found,
        ByteArray.extract_extract, Nat.add_zero, Nat.min_eq_left within]
    rw [ByteArray.extract_eq_extract_append_extract (start + char.utf8Size) (by omega) bound, first,
      extract_eq, ← List.utf8Encode_cons]

/-- Bytes that are decoded to their end are the bytes of the text that was read. -/
theorem encode_of_stop {bytes : List UInt8} (h : (decodeStart bytes).stop = bytes.length) :
    encode (String.ofList (decodeStart bytes).chars) = bytes := by
  obtain ⟨-, chars, chars_eq, extract_eq⟩ := decodeFrom_extract ⟨bytes.toArray⟩ 0 []
  have whole : (decodeFrom ⟨bytes.toArray⟩ 0 []).stop = ByteArray.size ⟨bytes.toArray⟩ := h
  rw [whole, ByteArray.extract_zero_size] at extract_eq
  rw [encode_ofList, show (decodeStart bytes).chars = chars from chars_eq, ← extract_eq]

/-- Strict decoding accepts exactly the bytes of texts. -/
theorem decode?_eq_some_iff {bytes : List UInt8} {text : String} :
    decode? bytes = some text ↔ bytes = encode text := by
  unfold decode?
  dsimp only
  constructor
  · intro h
    split at h
    · next stop =>
      rw [Option.some.injEq] at h
      rw [← h, encode_of_stop stop]
    · simp at h
  · rintro rfl
    rw [decodeStart_encode]
    simp

/-- Different texts have different bytes. -/
theorem encode_injective : Function.Injective encode := by
  intro left right h
  have decoded := decode?_eq_some_iff.2 h
  rw [decode?_eq_some_iff.2 rfl] at decoded
  exact Option.some.inj decoded

end SpanScore.Utf8
