import Timeshare.Text.Utf8

/-!
# Text and its bytes

Text is known from its bytes, and bytes of a text are read back as that text.
-/

namespace Timeshare.Text

theorem utf8Bytes_injective {first second : String} (same : utf8Bytes first = utf8Bytes second) :
    first = second := by
  apply String.toByteArray_inj.mp
  apply ByteArray.ext
  exact Array.toList_inj.mp same

theorem utf8Bytes_eq_nil_iff {text : String} : utf8Bytes text = [] ↔ text = "" := by
  constructor
  · intro none
    exact utf8Bytes_injective none
  · rintro rfl
    rfl

theorem decodeUtf8?_utf8Bytes (text : String) : decodeUtf8? (utf8Bytes text) = some text := by
  have bytes : (⟨(utf8Bytes text).toArray⟩ : ByteArray) = text.toByteArray := by
    apply ByteArray.ext
    simp [utf8Bytes]
  rw [decodeUtf8?, bytes, String.fromUTF8?, dif_pos text.isValidUTF8]
  rfl

/-- Text survives being stored as bytes. -/
@[simp]
theorem decodeLossy_utf8Bytes (text : String) : decodeLossy (utf8Bytes text) = text := by
  rw [decodeLossy, decodeUtf8?_utf8Bytes]

theorem utf8Bytes_eq_flatMap (text : String) :
    utf8Bytes text = text.toList.flatMap String.utf8EncodeChar := by
  have split : text.toByteArray = text.toList.utf8Encode := by
    rw [← String.toByteArray_ofList, String.ofList_toList]
  rw [utf8Bytes, split, List.utf8Encode]
  simp

/-- A character takes four bytes at most. -/
theorem length_utf8Bytes_le (text : String) : (utf8Bytes text).length ≤ 4 * text.length := by
  rw [utf8Bytes_eq_flatMap, List.length_flatMap, ← String.length_toList]
  induction text.toList with
  | nil => simp
  | cons character rest hypothesis =>
      have small := character.utf8Size_le_four
      rw [List.map_cons, List.sum_cons, List.length_cons, String.length_utf8EncodeChar]
      omega

end Timeshare.Text
