/-
  Text as bytes.

  Programs, input lines and output travel as lists of bytes in UTF-8.  Encoding goes character by
  character, so it carries over joins; decoding takes exactly the byte lists that encode some text.
-/

namespace NumScript.Text

/-- The UTF-8 bytes of a text. -/
def encode (s : String) : List UInt8 :=
  s.toList.flatMap String.utf8EncodeChar

/-- The text with these UTF-8 bytes, if they are any text's. -/
def decode? (bytes : List UInt8) : Option String :=
  String.fromUTF8? bytes.toByteArray

/-- Joined texts are encoded one after the other. -/
theorem encode_append (s t : String) : encode (s ++ t) = encode s ++ encode t := by
  simp [encode]

/-- These are the bytes in which texts are stored. -/
theorem toByteArray_encode (s : String) : (encode s).toByteArray = s.toByteArray := by
  rw [encode, ← List.utf8Encode, ← String.toByteArray_ofList, String.ofList_toList]

/-- Every text is read back from its bytes. -/
theorem decode?_encode (s : String) : decode? (encode s) = some s := by
  simp only [decode?, toByteArray_encode, String.fromUTF8?, s.isValidUTF8, ↓reduceDIte]
  rfl

end NumScript.Text
