import TokenCrypto.ContentEncryption.Aead
import TokenCrypto.ContentEncryption.Composite
import TokenCrypto.Key
import TokenCrypto.Policy

/-!
# Direct encryption

Tokens encrypted with a key that both sides share (alg `dir`). The key, a policy and codecs make a
`Direct`, which encrypts plaintexts into parts and decrypts parts into plaintexts. Checks that need
no secret come first, in a fixed order: the parts, the key management (alg), the method (enc), the
length of the key. A plaintext is decompressed (zip) only after its tag has been found right.

* `Direct.checkParts`, `Direct.checkAlgorithm`, `Direct.selectMethod`: the checks before any
  decrypting.
* `Direct.decrypt`, `Direct.encrypt`: the two directions.
-/

namespace TokenCrypto

/-- A shared key with what it may be used for. Its size is one that some method uses. -/
structure Direct where
  key : Secret
  policy : Policy
  codecs : Codecs
  key_bits : ∃ method ∈ EncryptionMethod.all, method.keyBits = key.bitLength

/-- Where an IV comes from: it is handed in, or drawn from a source. -/
inductive IvSource where
  | given (iv : Material)
  | drawn (draw : Nat → Bytes)

namespace Direct

/-- A key, a policy and codecs together. The key has to be symmetric and of a size that some method
uses. -/
def create (key : Key) (policy : Policy) (codecs : Codecs) : Except Error Direct :=
  match key.secret? with
  | none => reject (.sharedKeyType key.family)
  | some secret =>
    if h : ∃ method ∈ EncryptionMethod.all, method.keyBits = secret.bitLength then
      .ok { key := secret, policy, codecs, key_bits := h }
    else reject (.sharedKeyLength secret.bitLength)

def master (d : Direct) : Material := .octets d.key.bytes

/-! ## Checks -/

/-- The IV, the ciphertext and the tag of parts that have all three and no encrypted key. -/
def checkParts (parts : Parts) : Except Error (String × String × String) :=
  if parts.encryptedKeyText ≠ "" then reject .encryptedKeyPresent
  else
    match parts.iv, parts.tag, parts.ciphertext with
    | none, _, _ => reject .ivMissing
    | some _, none, _ => reject .tagMissing
    | some _, some _, none => reject .ciphertextMissing
    | some iv, some tag, some ciphertext => .ok (iv, ciphertext, tag)

/-- Refuses a key management (alg) that the policy does not accept. -/
def checkAlgorithm (d : Direct) (header : JweHeader) : Except Error Unit :=
  if header.algorithm ∈ d.policy.algorithmNames.map Json.Text.string then .ok ()
  else reject (.refusedKeyManagement header.algorithm.shown)

/-- The method of a header (enc), which the policy has to accept and the key has to fit. -/
def selectMethod (d : Direct) (header : JweHeader) : Except Error EncryptionMethod :=
  match header.method.string?.bind EncryptionMethod.ofName? with
  | none => reject (.unknownMethod header.method.shown)
  | some method =>
    if method.name ∉ d.policy.methodNames then
      reject (.refusedMethod method.name d.policy.methodNames)
    else if method.keyBits ≠ d.key.bitLength then
      reject <| .keyLength {
        algorithm := method.name
        expectedBits := method.keyBits
        actualBits := d.key.bitLength }
    else .ok method

/-- The codec of a header that names one (zip), with its name. There has to be such a codec, and the
policy has to accept it. -/
def codecFor (d : Direct) (header : JweHeader) : Except Error (Option (String × Codec)) :=
  match header.compression with
  | none => .ok none
  | some (.broken points) => reject (.unknownCompression (Json.Text.broken points).shown)
  | some (.string name) =>
    match d.codecs.find? name with
    | none => reject (.unknownCompression name)
    | some codec =>
      if name ∈ d.policy.compressionNames then .ok (some (name, codec))
      else reject (.unknownCompression name)

/-! ## Decrypting -/

/-- The plaintext of authentic octets, decompressed if the header has a zip. -/
def decompress (d : Direct) (header : JweHeader) (bytes : Bytes) : Except Error Bytes := do
  match ← d.codecFor header with
  | none => return bytes
  | some (name, codec) =>
    (codec.decompress bytes d.policy.limit).mapError (Raised.error (.notDecompressed name))

/-- The authentic octets of the parts of a token. AES-GCM authenticates the header and the encrypted
key as AAD, a composite method the header, the encrypted key, the IV and the ciphertext as its MAC
input. -/
def authenticate (d : Direct) (header : JweHeader) (method : EncryptionMethod)
    (encryptedKey iv ciphertext tag : String) : Except Error Bytes := do
  let tag ← wireBytes tag
  match method with
  | .gcm _ =>
    let data ← Aead.additionalData header.serialized encryptedKey
    let hidden ← wireBytes ciphertext
    let iv ← wireBytes iv
    Aead.decrypt d.master (.octets hidden) (.octets data) (.octets tag) (.octets iv)
  | .composite method => method.decrypt d.master header encryptedKey iv ciphertext (.octets tag)

/-- The plaintext of a token. -/
def decrypt (d : Direct) (header : JweHeader) (parts : Parts) : Except Error Bytes := do
  let (iv, ciphertext, tag) ← checkParts parts
  d.checkAlgorithm header
  let method ← d.selectMethod header
  let bytes ← d.authenticate header method parts.encryptedKeyText iv ciphertext tag
  d.decompress header bytes

/-! ## Encrypting -/

/-- The octets that are encrypted for a plaintext, compressed if the header has a zip. -/
def compress (d : Direct) (header : JweHeader) (text : Bytes) : Except Error Bytes := do
  match ← d.codecFor header with
  | none => return text
  | some (name, codec) =>
    (codec.compress text).mapError (Raised.error (.notCompressed name))

def ivFrom (source : IvSource) (method : EncryptionMethod) : Except Error Material :=
  match source with
  | .given iv => .ok iv
  | .drawn draw => (Iv.generate draw (some method.ivSize)).map .octets

def enclose (d : Direct) (header : JweHeader) (method : EncryptionMethod) (bytes : Bytes)
    (iv : Material) : Except Error Sealed := do
  match method with
  | .gcm _ =>
    let data ← Aead.additionalData header.serialized ""
    Aead.encrypt d.master (.octets bytes) (.octets data) iv
  | .composite method => method.encrypt d.master (.octets bytes) iv header ""

/-- The parts of a token with the given plaintext. -/
def encrypt (d : Direct) (header : JweHeader) (plaintext : Material) (source : IvSource) :
    Except Error Parts := do
  let text ← plaintext.fixedBytes .plaintext
  d.checkAlgorithm header
  let method ← d.selectMethod header
  let bytes ← d.compress header text
  let iv ← ivFrom source method
  let result ← d.enclose header method bytes iv
  return Parts.ofSealed (← iv.bytes .data) result

end Direct

end TokenCrypto
