/-
# Texts as bytes

Bytes that are the UTF-8 encoding of a text, and how this property behaves when bytes are
put together: what stands behind a text decides alone (`isText_encode_append`), and so does
what stands in front of a last character of one byte (`isText_concat`).
-/
import Mathlib.Data.List.Basic

namespace Utf8

/-- The bytes of a text. -/
def encode (text : String) : List UInt8 := text.toUTF8.data.toList

/-- The text of some bytes, if there is one. -/
def decode (bytes : List UInt8) : Option String := String.fromUTF8? bytes.toByteArray

/-- The bytes are those of some text. -/
def isText (bytes : List UInt8) : Bool := (decode bytes).isSome

variable {bytes bytes' : List UInt8} {x : UInt8}

/-- The bytes of a text are valid. -/
theorem isText_iff_isValidUTF8 : isText bytes = true ↔ bytes.toByteArray.IsValidUTF8 := by
  unfold isText decode String.fromUTF8?
  split
  · rename_i hvalid
    exact iff_of_true rfl hvalid
  · rename_i hvalid
    exact iff_of_false (by simp) hvalid

/-- A text is a sequence of characters. -/
theorem isText_iff :
    isText bytes = true ↔ ∃ l : List Char, bytes = l.flatMap String.utf8EncodeChar := by
  rw [isText_iff_isValidUTF8]
  constructor
  · rintro ⟨l, hl⟩
    rw [List.utf8Encode, List.toByteArray_inj] at hl
    exact ⟨l, hl⟩
  · rintro ⟨l, rfl⟩
    exact ⟨l, rfl⟩

/-- The characters of a text give its bytes. -/
theorem encode_eq (text : String) : encode text = text.toList.flatMap String.utf8EncodeChar := by
  unfold encode
  rw [String.toUTF8_eq_toByteArray, ← String.utf8Encode_toList, List.utf8Encode,
    List.toList_data_toByteArray]

/-- What is decoded encodes to the same bytes. -/
theorem encode_of_decode {text : String} (h : decode bytes = some text) : encode text = bytes := by
  unfold decode String.fromUTF8? at h
  split at h
  · obtain rfl := Option.some.inj h
    show bytes.toByteArray.data.toList = bytes
    exact List.toList_data_toByteArray
  · cases h

/-- The bytes of a text are a text. -/
@[simp] theorem isText_encode (text : String) : isText (encode text) = true :=
  isText_iff.mpr ⟨text.toList, encode_eq text⟩

/-! ## Texts put together -/

/-- A text and another are a text. -/
theorem isText_append (h : isText bytes = true) (h' : isText bytes' = true) :
    isText (bytes ++ bytes') = true := by
  obtain ⟨l, rfl⟩ := isText_iff.mp h
  obtain ⟨l', rfl⟩ := isText_iff.mp h'
  exact isText_iff.mpr ⟨l ++ l', List.flatMap_append.symm⟩

/-- A character in front decides nothing. -/
theorem isText_char_append (c : Char) :
    isText (String.utf8EncodeChar c ++ bytes) = isText bytes := by
  rw [Bool.eq_iff_iff, isText_iff_isValidUTF8, isText_iff_isValidUTF8, List.toByteArray_append,
    ← List.utf8Encode_singleton]
  exact ByteArray.isValidUTF8_utf8Encode_singleton_append_iff

/-- **A text in front decides nothing.** -/
theorem isText_encode_append (text : String) : isText (encode text ++ bytes) = isText bytes := by
  rw [encode_eq]
  induction text.toList with
  | nil => rfl
  | cons c l ih => rw [List.flatMap_cons, List.append_assoc, isText_char_append, ih]

/-- A text of one byte begins a character. -/
theorem isUTF8FirstByte_of_isText (h : isText [x] = true) : x.IsUTF8FirstByte := by
  obtain ⟨l, hl⟩ := isText_iff.mp h
  cases l with
  | nil => cases hl
  | cons c l =>
      have hfirst := UInt8.isUTF8FirstByte_getElem_zero_utf8EncodeChar (c := c)
      cases hc : String.utf8EncodeChar c with
      | nil => exact absurd hc String.utf8EncodeChar_ne_nil
      | cons y ys =>
          simp only [List.flatMap_cons, hc, List.cons_append, List.cons.injEq] at hl
          simp only [hc, List.getElem_cons_zero] at hfirst
          rw [hl.1]
          exact hfirst

/-- **A last character of one byte decides nothing.** -/
theorem isText_concat (hx : isText [x] = true) : isText (bytes ++ [x]) = isText bytes := by
  rw [Bool.eq_iff_iff]
  constructor
  · intro h
    obtain ⟨l, hl⟩ := isText_iff.mp h
    rcases List.eq_nil_or_concat' l with rfl | ⟨l, c, rfl⟩
    · simp at hl
    rcases List.eq_nil_or_concat' (String.utf8EncodeChar c) with hc | ⟨ys, y, hc⟩
    · exact absurd hc String.utf8EncodeChar_ne_nil
    -- the last character ends with `x`, which begins a character, so it is `x` alone
    simp only [List.flatMap_append, List.flatMap_singleton, hc, ← List.append_assoc] at hl
    obtain ⟨hbytes, hxy⟩ := List.append_inj' hl rfl
    obtain rfl := List.singleton_inj.mp hxy
    have hlast : ys.length < (String.utf8EncodeChar c).length := by
      rw [hc, List.length_append]
      exact Nat.lt_succ_self _
    have hget : (String.utf8EncodeChar c)[ys.length] = x := by simp [hc]
    have hzero : ys.length = 0 := by
      have hfirst := isUTF8FirstByte_of_isText hx
      rw [← hget] at hfirst
      exact UInt8.isUTF8FirstByte_getElem_utf8EncodeChar.mp hfirst
    rw [List.length_eq_zero_iff.mp hzero, List.append_nil] at hbytes
    exact isText_iff.mpr ⟨l, hbytes⟩
  · exact fun h => isText_append h hx

end Utf8
