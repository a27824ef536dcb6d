import TokenCrypto.Bytes

/-!
# UTF-8

Texts as octets. Octets are read strictly: surrogates, overlong forms and unfinished characters are
refused.

* `Utf8.decode?_encode`: what is written is read back.
-/

namespace TokenCrypto.Utf8

def encode (text : String) : Bytes := text.toByteArray.data.toList

/-- The text of octets, if they are one. -/
def decode? (bytes : Bytes) : Option String := String.fromUTF8? ⟨bytes.toArray⟩

theorem decode?_encode (text : String) : decode? (encode text) = some text := by
  have : String.fromUTF8? text.toByteArray = some text := dif_pos text.isValidUTF8
  simpa only [decode?, encode, Array.toArray_toList] using this

end TokenCrypto.Utf8
