import TokenCrypto.Iv
import TokenCrypto.Mode.Gcm
import TokenCrypto.Parts

/-!
# Content encryption in AES-GCM

The shared key, of sixteen or thirty-two octets, encrypts and authenticates at once. Beside the
plaintext the associated data (AAD) are authenticated: the header, a point, and the encrypted key.
There is a limit to how much the cipher takes. Encrypting tells of it as a rejection, while
decrypting leaves it a fault.

* `Aead.split_append`: splitting the cipher's output into ciphertext and tag loses nothing.
-/

namespace TokenCrypto.Aead

def ivSize : Nat := 12

/-- The most octets of plaintext or ciphertext, and of AAD, that the cipher takes. -/
def sizeLimit : Nat := 0x7fffffff

/-- The sizes of a text and of the AAD are within the limit. -/
def Within (size dataSize : Nat) : Prop := size ≤ sizeLimit ∧ dataSize ≤ sizeLimit

instance (size dataSize : Nat) : Decidable (Within size dataSize) :=
  inferInstanceAs (Decidable (_ ∧ _))

/-- The AAD: the header and the encrypted key, with a point between the two. -/
def additionalData (header encryptedKey : String) : Except Error Bytes :=
  asciiBytes (header ++ "." ++ encryptedKey)

/-- The key expected by a key of another size, in bits: the nearer one. -/
def expectedBits (size : Nat) : Nat := if size < 24 then 128 else 256

/-- The octets of a key, which have to be sixteen or thirty-two. -/
def keyBytes (key : Material) : Except Error Bytes := do
  let bytes ← key.bytes .key
  if bytes.length = 16 ∨ bytes.length = 32 then return bytes
  else
    reject <| .keyLength {
      algorithm := Rejection.gcmName
      expectedBits := expectedBits bytes.length
      actualBits := 8 * bytes.length }

/-- The cipher's output split into ciphertext and tag. -/
def split (closed : Bytes) : Sealed :=
  let size := closed.length - Gcm.tagSize
  ⟨closed.take size, closed.drop size⟩

/-- The octets of the AAD; there may be none. -/
def dataBytes (data : Material) : Except Error Bytes :=
  data.bytesOrNone (.argument "associated_data")

/-- A plaintext encrypted, and the tag of ciphertext and AAD. -/
def encrypt (key plaintext data iv : Material) : Except Error Sealed := do
  let key ← keyBytes key
  let text ← plaintext.fixedBytes .plaintext
  Iv.check iv ivSize Rejection.gcmName
  let iv ← iv.bytesFor .octets
  let data ← dataBytes data
  if Within text.length data.length then
    return split (Gcm.encrypt (Aes.schedule key) iv data text)
  else reject .tooLongForGcm

/-- The octets of a ciphertext and of a tag. -/
def sealedBytes (ciphertext tag : Material) : Except Error (Bytes × Bytes) :=
  match ciphertext.octets?, tag.octets? with
  | some ciphertext, some tag => .ok (ciphertext, tag)
  | _, _ => fail .sealedNotOctets

/-- The plaintext of a ciphertext with its tag behind it, if the tag is right. What is shorter than
a tag is forged, whatever the sizes are. -/
def openText (key iv data closed : Bytes) : Except Error Bytes :=
  if closed.length < Gcm.tagSize then reject .forgedGcmTag
  else if Within (closed.length - Gcm.tagSize) data.length then
    match Gcm.decrypt? (Aes.schedule key) iv data closed with
    | some text => .ok text
    | none => reject .forgedGcmTag
  else fail .tooLongForGcm

/-- A ciphertext decrypted, if the tag is right. -/
def decrypt (key ciphertext data tag iv : Material) : Except Error Bytes := do
  let key ← keyBytes key
  let (ciphertext, tag) ← sealedBytes ciphertext tag
  Iv.check iv ivSize Rejection.gcmName
  let iv ← iv.bytesFor .octets
  let data ← dataBytes data
  openText key iv data (ciphertext ++ tag)

theorem split_append (closed : Bytes) :
    (split closed).ciphertext ++ (split closed).tag = closed := by
  simp [split]

/-- What is long enough to hold a tag is split into one of full size. -/
theorem length_tag_split {closed : Bytes} (h : Gcm.tagSize ≤ closed.length) :
    (split closed).tag.length = Gcm.tagSize := by
  simp only [split, List.length_drop]
  omega

end TokenCrypto.Aead
