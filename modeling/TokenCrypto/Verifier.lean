import TokenCrypto.Header
import TokenCrypto.Hmac
import TokenCrypto.Key
import TokenCrypto.Rsa.Pkcs1
import TokenCrypto.Rsa.Pss

/-!
# Signature verifiers

A verifier is an algorithm bound to a key that goes with it: HMAC to a secret, RSASSA to a public
RSA key, ECDSA to a public key on the curve of the algorithm. The key is looked at once, when it is
bound; verifying then needs no more checks of it than the header's alg.

* `Verifier.bind`: an algorithm and a key together, if they go together.
* `Verifier.verify`: the question that a verifier answers.
-/

namespace TokenCrypto

/-- An algorithm bound to a key. -/
inductive Verifier where
  | mac (hash : Hash) (secret : Secret)
  | pkcs1 (hash : Hash) (key : Rsa.PublicKey)
  | pss (hash : Hash) (key : Rsa.PublicKey)
  | ecdsa (hash : Hash) (key : Ecdsa.PublicKey)
  deriving DecidableEq

namespace Verifier

def algorithm : Verifier → SignatureAlgorithm
  | mac hash _ => .hmac hash
  | pkcs1 hash _ => .pkcs1 hash
  | pss hash _ => .pss hash
  | ecdsa hash _ => .ecdsa hash

def key : Verifier → Key
  | mac _ secret => .symmetric secret
  | pkcs1 _ key => .rsaPublic key
  | pss _ key => .rsaPublic key
  | ecdsa _ key => .ecPublic key

def family (v : Verifier) : SignatureFamily := v.algorithm.family

/-- The names of the algorithms that are verified: one name. -/
def supported (v : Verifier) : List String := [v.algorithm.name]

/-- The name of the verifiers of a family. -/
def familyName : SignatureFamily → String
  | .hmac => "MACVerifier"
  | .rsa => "RSASSAVerifier"
  | .ec => "ECDSAVerifier"

/-- How a diagnosis shows a verifier: without its key. -/
def display (v : Verifier) : String :=
  familyName v.family ++ "(algorithm=" ++ v.algorithm.name ++ ")"

/-! ## Binding -/

/-- HMAC with a secret that is long enough for its hash function. -/
def bindSecret (hash : Hash) (key : Key) : Except Error Verifier :=
  let name := (SignatureAlgorithm.hmac hash).name
  match key with
  | .symmetric secret =>
    if SignatureAlgorithm.leastSecretBits hash ≤ secret.bitLength then .ok (mac hash secret)
    else
      reject <| .keyLength {
        algorithm := name
        expectedBits := SignatureAlgorithm.leastSecretBits hash
        actualBits := secret.bitLength
        atLeast := true }
  | key => reject (.secretRequired name key.family)

/-- RSASSA with a public RSA key of any size. -/
def bindRsa (algorithm : SignatureAlgorithm) (bound : Rsa.PublicKey → Verifier) (key : Key) :
    Except Error Verifier :=
  match key with
  | .rsaPublic key => .ok (bound key)
  | key => reject (.rsaPublicRequired algorithm.name key.family)

/-- ECDSA with a public key on exactly the curve that goes with its hash function. -/
def bindCurve (hash : Hash) (key : Key) : Except Error Verifier :=
  let name := (SignatureAlgorithm.ecdsa hash).name
  let expected := SignatureAlgorithm.curveFor hash
  match key with
  | .ecPublic key =>
    if key.curve = expected then .ok (ecdsa hash key)
    else reject (.curveRequired name expected key.curve)
  | key => reject (.ecPublicRequired name key.family)

def bind (algorithm : SignatureAlgorithm) (key : Key) : Except Error Verifier :=
  match algorithm with
  | .hmac hash => bindSecret hash key
  | .pkcs1 hash => bindRsa (.pkcs1 hash) (pkcs1 hash) key
  | .pss hash => bindRsa (.pss hash) (pss hash) key
  | .ecdsa hash => bindCurve hash key

/-- An algorithm of a family, given by name, bound to a key. -/
def bindWithin (family : SignatureFamily) (name : String) (key : Key) : Except Error Verifier :=
  match SignatureAlgorithm.ofName? name with
  | some algorithm =>
    if algorithm.family = family then bind algorithm key else reject (.unknownSignature name)
  | none => reject (.unknownSignature name)

/-! ## Verifying -/

def signatureBytes (signature : Material) : Except Error Bytes :=
  signature.bytesFor (.argument "signature")

def messageBytes (message : Material) : Except Error Bytes := message.bytesFor (.argument "data")

/-- Whether a tag is the HMAC of a message, which may be missing. -/
def checkMac (hash : Hash) (secret : Secret) (message tag : Material) : Except Error Bool := do
  let message ← message.bytesOrNone .hashed
  (Material.octets (Hmac.tag hash secret.bytes message)).equals tag

/-- Whether an ECDSA signature was made for a message. One of a wrong size was not, whatever the
message is. -/
def checkEcdsa (hash : Hash) (key : Ecdsa.PublicKey) (message signature : Material) :
    Except Error Bool := do
  if (← signature.size) ≠ 2 * key.curve.width then return false
  else
    let signature ← signature.bytesFor .number
    let message ← messageBytes message
    return Ecdsa.verify key hash message signature

/-- Whether a signature was made for a message with the bound algorithm. For RSASSA-PSS, a modulus
without room for a digest cannot be asked. -/
def check (v : Verifier) (message signature : Material) : Except Error Bool := do
  match v with
  | mac hash secret => checkMac hash secret message signature
  | pkcs1 hash key =>
    let signature ← signatureBytes signature
    let message ← messageBytes message
    return Rsa.Pkcs1.verify key hash message signature
  | pss hash key =>
    let signature ← signatureBytes signature
    let message ← messageBytes message
    if Rsa.Pss.hasRoom key hash then return Rsa.Pss.verify key hash message signature
    else fail .noRoomForDigest
  | ecdsa hash key => checkEcdsa hash key message signature

/-- Whether a signature was made for a message, the signing input; the alg of the header has to be
the bound algorithm. -/
def verify (v : Verifier) (header : JwsHeader) (message signature : Material) :
    Except Error Bool :=
  if header.algorithm ∈ v.supported.map Json.Text.string then v.check message signature
  else reject (.unknownSignature header.algorithm.shown)

/-- Of octets, a tag is compared with the HMAC under the bound secret. -/
theorem checkMac_octets (hash : Hash) (secret : Secret) (message tag : Bytes) :
    checkMac hash secret (.octets message) (.octets tag) =
      .ok (Bytes.equalThroughout (Hmac.tag hash secret.bytes message) tag) := rfl

/-- Of octets, an ECDSA signature is the plain question. -/
theorem checkEcdsa_octets (hash : Hash) (key : Ecdsa.PublicKey) (message signature : Bytes) :
    checkEcdsa hash key (.octets message) (.octets signature) =
      .ok (Ecdsa.verify key hash message signature) := by
  show (if signature.length ≠ 2 * key.curve.width then Except.ok false
    else .ok (Ecdsa.verify key hash message signature)) = _
  split
  · next h => rw [Ecdsa.verify_eq_false_of_length h]
  · rfl

end Verifier

end TokenCrypto
