import TokenCrypto.Ecdsa
import TokenCrypto.Material.Octets
import TokenCrypto.Rsa.Key

/-!
# Keys

A key is a secret shared by both sides (oct), or one half of an RSA or elliptic curve (EC) pair;
anything else may be handed in as a key, too, and goes with no algorithm.

* `Key.secret?_eq_some_iff`: the symmetric keys are exactly the secrets.
-/

namespace TokenCrypto

/-- A shared secret, the octets of a `SecretKey`. -/
structure Secret where
  bytes : Bytes
  deriving DecidableEq

namespace Secret

def bitLength (secret : Secret) : Nat := 8 * secret.bytes.length

/-- The secret that a value holds; a value that is no octets is a fault. -/
def ofMaterial (m : Material) : Except Error Secret := (m.bytes .secret).map Secret.mk

/-- How a diagnosis shows a secret: by its length alone. -/
def display (secret : Secret) : String := s!"SecretKey(bit_length={secret.bitLength})"

end Secret

/-- A key. Of a private key no more is kept than can be told about it. -/
inductive Key where
  | symmetric (secret : Secret)
  | rsaPublic (key : Rsa.PublicKey)
  | rsaPrivate (modulus : Nat)
  | ecPublic (key : Ecdsa.PublicKey)
  | ecPrivate (curve : Curve)
  | unknown
  deriving DecidableEq

namespace Key

/-- A value as a key: octets are a secret, and anything else is unknown. -/
def ofMaterial (m : Material) : Key :=
  match m.bytes? with
  | some bytes => symmetric ⟨bytes⟩
  | none => unknown

def secret? : Key → Option Secret
  | symmetric secret => some secret
  | _ => none

/-- What may be told about a key. -/
def shape : Key → KeyShape
  | symmetric secret => { family := .symmetric, bitLength := secret.bitLength }
  | rsaPublic key => { family := .rsa, bitLength := key.bits, isPublic := true }
  | rsaPrivate modulus => { family := .rsa, bitLength := TokenCrypto.bitLength modulus }
  | ecPublic key =>
    { family := .ec, bitLength := key.curve.keyBits, curve := some key.curve, isPublic := true }
  | ecPrivate curve => { family := .ec, bitLength := curve.keyBits, curve := some curve }
  | unknown => { family := .unknown }

def family (key : Key) : KeyFamily := key.shape.family

theorem secret?_eq_some_iff {key : Key} {secret : Secret} :
    key.secret? = some secret ↔ key = symmetric secret := by
  cases key <;> simp [secret?]

end Key

end TokenCrypto
