/-!
# Texts as bytes

A text travels as its UTF-8 bytes; bytes that are not UTF-8 are no text.
-/

namespace Troupe

abbrev Bytes := List UInt8

namespace Text

def encode (s : String) : Bytes := s.toUTF8.data.toList

/-- The text that bytes are the UTF-8 form of. -/
def decode? (bytes : Bytes) : Option String := String.fromUTF8? ⟨bytes.toArray⟩

/-- The text of bytes, or a stand-in where they are no text. -/
def decodeD (bytes : Bytes) (default : String) : String := (decode? bytes).getD default

@[simp] theorem decode?_encode (s : String) : decode? (encode s) = some s := by
  have whole : (⟨(encode s).toArray⟩ : ByteArray) = s.toByteArray := rfl
  simp [decode?, String.fromUTF8?, whole, s.isValidUTF8, String.fromUTF8]

theorem encode_injective {s t : String} (h : encode s = encode t) : s = t := by
  have both : decode? (encode s) = decode? (encode t) := by rw [h]
  simpa using both

end Text

end Troupe
