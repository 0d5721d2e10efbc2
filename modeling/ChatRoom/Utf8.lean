/-!
# Bytes of a text

Texts travel and are stored as UTF-8 bytes. `decode_eq_some_iff`: a byte sequence decodes to a text
exactly when it is the encoding of that text.
-/

namespace ChatRoom.Utf8

def encode (s : String) : List UInt8 := s.toByteArray.data.toList

/-- The text that has these UTF-8 bytes, if there is one. -/
def decode (bytes : List UInt8) : Option String := String.fromUTF8? ⟨bytes.toArray⟩

@[simp] theorem length_encode (s : String) : (encode s).length = s.utf8ByteSize := rfl

theorem encode_append (s t : String) : encode (s ++ t) = encode s ++ encode t := by
  simp [encode, String.toByteArray_append, ByteArray.data_append]

theorem encode_injective {s t : String} (h : encode s = encode t) : s = t := by
  have : s.toByteArray = t.toByteArray := ByteArray.ext (Array.toList_inj.1 h)
  exact String.toByteArray_inj.1 this

theorem decode_eq_some_iff {bytes : List UInt8} {s : String} :
    decode bytes = some s ↔ encode s = bytes := by
  constructor
  · intro h
    simp only [decode, String.fromUTF8?] at h
    split at h
    · cases h; simp [encode, String.fromUTF8]
    · cases h
  · rintro rfl
    have hs : (⟨(encode s).toArray⟩ : ByteArray) = s.toByteArray := by simp [encode]
    simp only [decode, String.fromUTF8?, hs, s.isValidUTF8, dite_true, Option.some.injEq]
    rfl

@[simp] theorem decode_encode (s : String) : decode (encode s) = some s :=
  decode_eq_some_iff.2 rfl

end ChatRoom.Utf8
