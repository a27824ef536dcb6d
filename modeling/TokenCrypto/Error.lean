import TokenCrypto.Algorithm.Encryption
import TokenCrypto.Algorithm.Signature
import TokenCrypto.Compression
import TokenCrypto.Key.Shape
import TokenCrypto.Material
import TokenCrypto.Json.Reader
import TokenCrypto.Report
import TokenCrypto.Text.Base64Url

/-!
# Errors

There are three sorts of errors. A rejection is an answer about a token or key: it has a report, and
it may have been brought about by something underneath. A fault is a request that makes no sense as
it stands: a value of the wrong kind, a number out of range, a text that cannot be written. The
third sort is not about the request: an exception of a codec that nothing handles.

* `Rejection.report`: what is told about a rejection.
* `Fault.message?`: what is told about a fault.
* `bind_eq_ok_iff`: steps one after the other succeed if each of them does.
* `exists_ok_iff`: what is given in some cases and refused in the others.
* `Raised.error`: what a codec raises, as those who called it see it.
-/

namespace TokenCrypto

/-! ## Rejections -/

/-- Why a header is no JSON object. -/
inductive HeaderFault where
  | notUtf8
  | notJson
  | notObject
  deriving DecidableEq, Repr

/-- Why a token or key is rejected, told as a `JOSEError` of some category. -/
inductive Rejection where
  /-- A text is no Base64URL. -/
  | malformedText
  | malformedHeader (why : HeaderFault)
  /-- The alg of a header is no text, or an empty one. -/
  | emptyAlgorithm
  /-- The enc of a header is no text, or an empty one. -/
  | emptyMethod
  | missingAlgorithmOrMethod
  | compressionNotText
  | partyInfoNotText
  | encryptedKeyPresent
  | ivMissing
  | tagMissing
  | ciphertextMissing
  | ivLength (algorithm : String) (actual expected : Int)
  /-- The shared key is not symmetric. -/
  | sharedKeyType (actual : KeyFamily)
  /-- The shared key is of no size that any method uses. -/
  | sharedKeyLength (bits : Nat)
  | secretRequired (algorithm : String) (actual : KeyFamily)
  | rsaPublicRequired (algorithm : String) (actual : KeyFamily)
  | ecPublicRequired (algorithm : String) (actual : KeyFamily)
  | curveRequired (algorithm : String) (expected actual : Curve)
  | keyLength (length : KeyLength)
  | unknownSignature (name : String)
  | unknownKeyManagement (name : String)
  | refusedKeyManagement (name : String)
  | unknownMethod (name : String)
  /-- The method (enc) is known but not among those accepted. -/
  | refusedMethod (name : String) (accepted : List String)
  | unknownDerivationHash (name : String)
  /-- No CEK and CIK are derived for the method. -/
  | notDerived (name : String)
  | notComposite (name : String)
  /-- The tag of a composite method is wrong. -/
  | forgedTag (method : CompositeMethod)
  /-- The tag of AES-GCM is wrong. -/
  | forgedGcmTag
  /-- The plaintext or the AAD is beyond the limit of AES-GCM. -/
  | tooLongForGcm
  | unknownCompression (name : String)
  | notCompressed (name : String) (why : CodecError)
  | notDecompressed (name : String) (why : CodecError)
  /-- The ciphertext is authentic but not whole blocks with a padding. -/
  | badPadding (method : CompositeMethod)
  deriving DecidableEq, Repr

/-- What is underneath a rejection. -/
inductive Cause where
  | notUtf8
  | notJson
  | tag
  | padding
  | size
  | codec (why : CodecError)
  deriving DecidableEq, Repr

namespace Rejection

/-- What is underneath a rejection, if there is something. -/
def cause? : Rejection → Option Cause
  | malformedHeader .notUtf8 => some .notUtf8
  | malformedHeader .notJson => some .notJson
  | forgedGcmTag => some .tag
  | badPadding _ => some .padding
  | tooLongForGcm => some .size
  | notCompressed _ why => some (.codec why)
  | notDecompressed _ why => some (.codec why)
  | _ => none

/-- The name under which AES-GCM is told. -/
def gcmName : String := "AES-GCM"

/-- The report of a part or header that is not well formed. -/
def invalid (message : String) : Report := { category := .validation, message }

/-- The report of an algorithm that is not supported. -/
def unsupported (message algorithm : String) : Report :=
  { category := .unsupportedAlgorithm, message, algorithm := some algorithm }

/-- The report of a key whose family does not go with an algorithm. -/
def wrongFamily (message algorithm expected : String) (actual : KeyFamily) : Report :=
  KeyMismatch.report
    { message, algorithm := some algorithm, expected := some expected, actual := some actual.name }

/-- What is told about a rejection. -/
def report : Rejection → Report
  | malformedText => invalid "Invalid Base64URL encoding"
  | malformedHeader _ => invalid "Invalid header: not a JSON object"
  | emptyAlgorithm => invalid "The algorithm (alg) header parameter must be a non-empty string"
  | emptyMethod =>
    invalid "The encryption method (enc) header parameter must be a non-empty string"
  | missingAlgorithmOrMethod => invalid "Invalid JWE header: missing alg or enc"
  | compressionNotText => invalid "Invalid JWE header: zip must be a string"
  | partyInfoNotText => invalid "Invalid JWE header: epu/epv must be Base64URL strings"
  | encryptedKeyPresent => invalid "The encrypted key must be omitted (empty)"
  | ivMissing => invalid "The initialization vector (IV) must not be null"
  | tagMissing => invalid "The integrity value must not be null"
  | ciphertextMissing => invalid "The cipher text must not be null"
  | ivLength algorithm actual expected => {
      category := .validation
      message :=
        s!"Invalid IV length for {algorithm}: {8 * actual} bits, expected {8 * expected} bits"
      algorithm := some algorithm }
  | sharedKeyType actual =>
    wrongFamily "Direct encryption requires a symmetric secret key" KeyManagement.direct.name
      KeyFamily.symmetric.name actual
  | sharedKeyLength bits =>
    KeyMismatch.report {
      message := s!"The key length must be one of [128, 256, 512] bits, got {bits} bits"
      algorithm := some KeyManagement.direct.name
      expected := some "128/256/512 bits"
      actual := some s!"{bits} bits" }
  | secretRequired algorithm actual =>
    wrongFamily s!"{algorithm} requires a symmetric secret key, got {actual.name}" algorithm
      KeyFamily.symmetric.name actual
  | rsaPublicRequired algorithm actual =>
    wrongFamily s!"{algorithm} requires an RSA public key, got {actual.name}" algorithm
      "RSA public key" actual
  | ecPublicRequired algorithm actual =>
    wrongFamily s!"{algorithm} requires an EC public key, got {actual.name}" algorithm
      "EC public key" actual
  | curveRequired algorithm expected actual =>
    KeyMismatch.report {
      message := s!"{algorithm} requires an EC key on curve {expected.name}, got {actual.name}"
      algorithm := some algorithm
      expected := some expected.name
      actual := some actual.name }
  | keyLength length => length.report
  | unknownSignature name => unsupported s!"Unsupported JWS algorithm: {name}" name
  | unknownKeyManagement name => unsupported s!"Unsupported JWE algorithm: {name}" name
  | refusedKeyManagement name => unsupported "Unsupported algorithm, must be \"dir\"" name
  | unknownMethod name =>
    unsupported
      ("Unsupported encryption method, must be "
        ++ "A128CBC-HS256, A256CBC-HS512, A128GCM or A256GCM") name
  | refusedMethod name accepted =>
    unsupported
      (s!"Encryption method {name} is not accepted, must be one of "
        ++ String.intercalate ", " accepted) name
  | unknownDerivationHash name => unsupported s!"Unsupported Concat KDF hash: {name}" name
  | notDerived name => unsupported s!"Concat KDF is not used with {name}" name
  | notComposite name => unsupported s!"Not an AES-CBC/HMAC encryption method: {name}" name
  | forgedTag method => {
      category := .integrity
      message := "HMAC integrity check failed"
      algorithm := some method.name }
  | forgedGcmTag => {
      category := .integrity
      message := "Couldn't validate GCM authentication tag"
      algorithm := some gcmName }
  | tooLongForGcm => {
      category := .general
      message := "Couldn't encrypt with AES/GCM"
      algorithm := some gcmName }
  | unknownCompression name => {
      category := .compression
      message := s!"Unsupported compression algorithm: {name}"
      algorithm := some name }
  | notCompressed name why => {
      category := .compression
      message := s!"Couldn't compress plain text: {why.message}"
      algorithm := some name }
  | notDecompressed name why => {
      category := .compression
      message := s!"Couldn't decompress plain text: {why.message}"
      algorithm := some name }
  | badPadding method => {
      category := .decryption
      message := s!"{method.name} decryption failed"
      algorithm := some method.name }

end Rejection

/-! ## Faults -/

/-- What a value was handed in as. -/
inductive Role where
  | data
  | partyU
  | partyV
  | secret
  | sharedSecret
  | key
  | plaintext
  deriving DecidableEq, Repr

/-- The name of a role in a diagnosis. -/
def Role.name : Role → String
  | .data => "Data"
  | .partyU => "party_u_info"
  | .partyV => "party_v_info"
  | .secret => "Secret"
  | .sharedSecret => "Shared secret"
  | .key => "Key"
  | .plaintext => "Plaintext"

/-- What a value was used for. -/
inductive Use where
  /-- Its items were to be counted. -/
  | size
  /-- It was to be written as octets. -/
  | octets
  /-- It was to stand behind octets. -/
  | joined
  /-- It was compared with items of some kind. -/
  | compared (expected : Kind)
  /-- It was to be read as a number. -/
  | number
  /-- It was to be hashed. -/
  | hashed
  /-- It was the key of an HMAC. -/
  | macKey
  /-- It was a text to be compressed, or a compressed one. -/
  | stream
  /-- It was handed on under a name. -/
  | argument (name : String)
  deriving DecidableEq, Repr

/-- What is told about a value of a kind that is unfit for a use. -/
def Use.message (actual : Kind) : Use → String
  | .size => s!"object of type '{actual.name}' has no len()"
  | .octets => "string argument without an encoding"
  | .joined => s!"can't concat {actual.name} to bytes"
  | .compared expected =>
    s!"unsupported operand type(s) for ^: '{expected.itemName}' and '{actual.itemName}'"
  | .number => s!"cannot convert '{actual.name}' object to bytes"
  | .hashed =>
    if actual = .text then "Strings must be encoded before hashing"
    else "object supporting the buffer API required"
  | .macKey => s!"key: expected bytes or bytearray, but got '{actual.name}'"
  | .stream => s!"a bytes-like object is required, not '{actual.name}'"
  | .argument name =>
    s!"argument '{name}': Cannot convert \"<class '{actual.name}'>\" instance to a buffer."
      ++ if actual = .text then "\nDid you mean to pass a bytestring instead?" else ""

/-- Why a request makes no sense. -/
inductive Fault where
  | notOctets (role : Role) (actual : Kind)
  /-- A value of this kind is unfit for the use. -/
  | unfit (use : Use) (actual : Kind)
  | sealedNotOctets
  | nonAscii (run : NonAscii)
  /-- A number does not fit a field of 32 bits. -/
  | fieldOverflow
  /-- A key of this many bits (`key_bit_length`) cannot be derived. -/
  | derivedBits (bits : Int)
  | ivSize
  /-- No encryption method has this name. -/
  | noSuchMethod (name : String)
  | integerTooLong (digits : Nat)
  | nestedTooDeep
  /-- The modulus has no room for a digest. -/
  | noRoomForDigest
  /-- The ciphertext or the AAD is beyond the limit of AES-GCM. -/
  | tooLongForGcm
  deriving DecidableEq, Repr

/-- What is told about a fault; some faults have no words. -/
def Fault.message? : Fault → Option String
  | .notOctets role actual => some s!"{role.name} must be bytes, got {actual.name}"
  | .unfit use actual => some (use.message actual)
  | .sealedNotOctets => some "Ciphertext and authentication tag must be bytes"
  | .nonAscii run => some run.message
  | .fieldOverflow => none
  | .derivedBits bits => some s!"Key bit length must be a positive multiple of 8, got {bits}"
  | .ivSize => some "IV size must be in 1..64 bytes"
  | .noSuchMethod name => some (Quoted.quote name)
  | .integerTooLong digits =>
    some (s!"Exceeds the limit ({Json.digitLimit} digits) for integer string conversion: "
      ++ s!"value has {digits} digits; use sys.set_int_max_str_digits() to increase the limit")
  | .nestedTooDeep => none
  | .noRoomForDigest =>
    some "Digest too large for key size. Use a larger key or different digest."
  | .tooLongForGcm => none

/-! ## Errors -/

/-- What comes instead of an answer. -/
inductive Error where
  | rejected (why : Rejection)
  | fault (why : Fault)
  /-- An exception of a codec that nothing handled. -/
  | escaped (why : Escape)
  deriving DecidableEq, Repr

/-- What a codec raises, where its failures are told as rejections. -/
def Raised.error (told : CodecError → Rejection) : Raised → Error
  | .failure why => .rejected (told why)
  | .escape why => .escaped why

/-- Outcomes can be compared if results can. -/
instance decidableEqOutcome {α : Type} [DecidableEq α] : DecidableEq (Except Error α)
  | .ok a, .ok b =>
    if h : a = b then isTrue (congrArg Except.ok h) else isFalse fun same => h (Except.ok.inj same)
  | .error d, .error e =>
    if h : d = e then isTrue (congrArg Except.error h)
    else isFalse fun same => h (Except.error.inj same)
  | .ok _, .error _ => isFalse nofun
  | .error _, .ok _ => isFalse nofun

/-- A rejection instead of a result. -/
def reject {α : Type} (why : Rejection) : Except Error α := .error (.rejected why)

/-- A fault instead of a result. -/
def fail {α : Type} (why : Fault) : Except Error α := .error (.fault why)

/-! ## Steps one after the other -/

section

variable {α β : Type}

@[simp] theorem pure_eq_ok (a : α) : (pure a : Except Error α) = .ok a := rfl

-- These hold by `rfl`, but that would have a later proof unfold what is bound.
@[simp] theorem ok_bind (a : α) (next : α → Except Error β) : (Except.ok a >>= next) = next a := by
  simp only [bind, Except.bind]

@[simp] theorem reject_bind (why : Rejection) (next : α → Except Error β) :
    (reject why >>= next) = reject why := by
  simp only [reject, bind, Except.bind]

@[simp] theorem fail_bind (why : Fault) (next : α → Except Error β) :
    (fail why >>= next) = fail why := by
  simp only [fail, bind, Except.bind]

/-- Two steps succeed if the first does, and the second on what the first gives. -/
theorem bind_eq_ok_iff {ε : Type} {first : Except ε α} {next : α → Except ε β} {b : β} :
    (first >>= next) = .ok b ↔ ∃ a, first = .ok a ∧ next a = .ok b := by
  cases first with
  | error e => simp [bind, Except.bind]
  | ok a => simp [bind, Except.bind]

@[simp] theorem reject_ne_ok (why : Rejection) (a : α) : reject why ≠ .ok a := by
  intro h
  cases h

@[simp] theorem fail_ne_ok (why : Fault) (a : α) : fail why ≠ .ok a := by
  intro h
  cases h

/-- What is given where `p` holds, and refused where it does not, has a result exactly if `p`
holds. -/
theorem exists_ok_iff {p : Prop} {result : Except Error α} {told : Rejection → Prop}
    (given : p → ∃ a, result = .ok a) (refused : ¬ p → ∃ why, result = reject why ∧ told why) :
    (∃ a, result = .ok a) ↔ p := by
  refine ⟨?_, given⟩
  rintro ⟨a, made⟩
  by_cases h : p
  · exact h
  · obtain ⟨why, refusal, -⟩ := refused h
    exact absurd (refusal.symm.trans made) (reject_ne_ok why a)

end

/-! ## Texts as octets -/

/-- A text as octets; a text outside ASCII is a fault. -/
def asciiBytes (text : String) : Except Error Bytes :=
  (Ascii.encode text).mapError fun run => .fault (.nonAscii run)

/-- The octets of a Base64URL text; any other text is rejected. -/
def wireBytes (text : String) : Except Error Bytes :=
  match Base64Url.decode? text with
  | some bytes => .ok bytes
  | none => reject .malformedText

@[simp] theorem wireBytes_encode (bytes : Bytes) :
    wireBytes (Base64Url.encode bytes) = .ok bytes := by
  rw [wireBytes, Base64Url.decode?_encode]

end TokenCrypto
