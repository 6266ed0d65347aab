import MultisigVault.Bytes

/-!
# UTF-8

Files and hexadecimal text are seen as bytes.  Encoding a text loses nothing, and
some byte strings encode no text.
-/

namespace MultisigVault.Utf8

def encode (text : String) : Bytes :=
  text.toUTF8.data.toList

def decode? (bytes : Bytes) : Option String :=
  String.fromUTF8? ⟨bytes.toArray⟩

@[simp]
theorem decode?_encode (text : String) : decode? (encode text) = some text := by
  simp [decode?, encode, String.fromUTF8?, String.fromUTF8, text.isValidUTF8]

end MultisigVault.Utf8
