import TokenCrypto.Derivation
import TokenCrypto.Header
import TokenCrypto.Hmac
import TokenCrypto.Iv
import TokenCrypto.Mode.Cbc
import TokenCrypto.Parts

/-!
# Content encryption with a separate tag

The methods of AES-CBC with HMAC. Two keys are derived from the shared one. With the content
encryption key (CEK) the plaintext is encrypted in AES-CBC; with the content integrity key (CIK) the
header, the encrypted key, the IV and the ciphertext are authenticated by HMAC, as Base64URL texts
with points between them. Nothing is decrypted before the tag has been found right.

* `CompositeMethod.length_tag`: a tag is half as long as a digest.
-/

namespace TokenCrypto.CompositeMethod

def named (name : String) : Except Error CompositeMethod :=
  match (EncryptionMethod.ofName? name).bind EncryptionMethod.composite? with
  | some method => .ok method
  | none => reject (.notComposite name)

def ivSize : Nat := 16

/-- The MAC input: header, encrypted key, IV and ciphertext, as texts on the wire. -/
def macInput (header encryptedKey iv ciphertext : String) : Except Error Bytes :=
  asciiBytes (header ++ "." ++ encryptedKey ++ "." ++ iv ++ "." ++ ciphertext)

/-- The tag: the left half of the HMAC under the CIK. -/
def tag (method : CompositeMethod) (key input : Bytes) : Bytes :=
  (Hmac.tag method.hash key input).take method.tagSize

/-- The tag of a MAC input under a CIK, both of them values of any kind. An input that is missing
counts as an empty one. -/
def tagOf (method : CompositeMethod) (key input : Material) : Except Error Bytes := do
  let key ← key.bytesFor .macKey
  let input ← input.bytesOrNone .hashed
  return method.tag key input

/-- The CEK and the CIK for a token with the given header, whose epu and epv go into them. -/
def keys (method : CompositeMethod) (master : Material) (header : JweHeader) :
    Except Error KeyPair :=
  KeyPair.derive method master (.ofBytes? header.partyU) (.ofBytes? header.partyV)

/-- The ciphertext and the tag of a plaintext, under the keys derived from the master key. -/
def encrypt (method : CompositeMethod) (master plaintext iv : Material) (header : JweHeader)
    (encryptedKey : String) : Except Error Sealed := do
  let text ← plaintext.fixedBytes .plaintext
  Iv.check iv ivSize method.name
  let keys ← method.keys master header
  let iv ← iv.bytesFor .octets
  let ciphertext := Cbc.encrypt (Aes.schedule keys.content) iv text
  let input ← macInput header.serialized encryptedKey (Base64Url.encode iv)
    (Base64Url.encode ciphertext)
  return ⟨ciphertext, method.tag keys.integrity input⟩

/-- The plaintext of a ciphertext, if the tag is right and the padding is, too. -/
def decrypt (method : CompositeMethod) (master : Material) (header : JweHeader)
    (encryptedKey iv ciphertext : String) (tag : Material) : Except Error Bytes := do
  let ivBytes ← wireBytes iv
  Iv.check (.octets ivBytes) ivSize method.name
  let hidden ← wireBytes ciphertext
  let keys ← method.keys master header
  let input ← macInput header.serialized encryptedKey iv ciphertext
  if ← (Material.octets (method.tag keys.integrity input)).equals tag then
    match Cbc.decrypt? (Aes.schedule keys.content) ivBytes hidden with
    | some text => return text
    | none => reject (.badPadding method)
  else reject (.forgedTag method)

@[simp] theorem length_tag (method : CompositeMethod) (key input : Bytes) :
    (method.tag key input).length = method.tagSize := by
  cases method <;> simp [tag, tagSize, hash, Hash.size]

end TokenCrypto.CompositeMethod
