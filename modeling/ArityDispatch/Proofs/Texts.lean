import ArityDispatch.Boundary
import Mathlib.Data.List.Basic

/-!
# Texts and their bytes

A byte string is a text if it is made of characters in UTF-8, one after the other. Of a byte
string with an end mark only the bytes before its first zero count.
-/

namespace ArityDispatch

namespace Text

/-- The bytes are the characters of the text in UTF-8. -/
def Encodes (bytes : List UInt8) (text : String) : Prop :=
  text.toList.flatMap String.utf8EncodeChar = bytes

/-- The bytes before the first zero are the characters of the text in UTF-8. -/
def Spells (bytes : List UInt8) (text : String) : Prop :=
  text.toList.flatMap String.utf8EncodeChar = untilZero bytes

theorem fromUTF8?_eq_some_iff {bytes : ByteArray} {text : String} :
    String.fromUTF8? bytes = some text ↔ text.toByteArray = bytes := by
  constructor
  · intro h
    rw [String.fromUTF8?] at h
    split at h
    · exact Option.some.inj h ▸ rfl
    · cases h
  · rintro rfl
    rw [String.fromUTF8?, dif_pos text.isValidUTF8]
    rfl

theorem ofBytes?_eq_some_iff {bytes : List UInt8} {text : String} :
    ofBytes? bytes = some text ↔ Encodes bytes text := by
  have hencoded : text.toByteArray.data.toList = text.toList.flatMap String.utf8EncodeChar := by
    rw [← String.utf8Encode_toList, List.utf8Encode, List.toList_data_toByteArray]
  rw [ofBytes?, fromUTF8?_eq_some_iff, Encodes, ← hencoded]
  constructor
  · intro h
    rw [h]
  · intro h
    rw [← h]

theorem ofTerminated?_eq_some_iff {bytes : List UInt8} {text : String} :
    ofTerminated? bytes = some text ↔ Spells bytes text :=
  ofBytes?_eq_some_iff

/-- Bytes are those of at most one text. -/
theorem Spells.unique {bytes : List UInt8} {text text' : String} (h : Spells bytes text)
    (h' : Spells bytes text') : text = text' :=
  Option.some.inj ((ofTerminated?_eq_some_iff.mpr h).symm.trans (ofTerminated?_eq_some_iff.mpr h'))

end Text

namespace Boundary

theorem requireText_spelled {bytes : List UInt8} {text : String} (h : Text.Spells bytes text)
    (parameter : String) : requireText (some bytes) parameter = .ok text := by
  have htext := Text.ofTerminated?_eq_some_iff.mpr h
  simp only [requireText, require, bind, Except.bind, htext]
  rfl

theorem requireText_bad {bytes : List UInt8} (h : ¬ ∃ text, Text.Spells bytes text)
    (parameter : String) : requireText (some bytes) parameter = .error .invalidUtf8 := by
  have htext : Text.ofTerminated? bytes = none :=
    Option.eq_none_iff_forall_ne_some.mpr fun text htext =>
      h ⟨text, Text.ofTerminated?_eq_some_iff.mp htext⟩
  simp only [requireText, require, bind, Except.bind, htext]
  rfl

end Boundary

end ArityDispatch
