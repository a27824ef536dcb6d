import TokenCrypto.Curve
import TokenCrypto.Hash

/-!
# Signature algorithms

The twelve algorithms a signed token may name as its alg: four schemes (HS, RS, PS and ES) with
three hash functions each.

* `SignatureAlgorithm.ofName?_name`: each algorithm is found by its name.
* `SignatureAlgorithm.name_of_ofName?`: what is found has exactly the name that was looked for.
-/

namespace TokenCrypto

/-- The families that a signature algorithm and its key may belong to. -/
inductive SignatureFamily where
  | hmac
  | rsa
  | ec
  deriving DecidableEq, Repr

def SignatureFamily.name : SignatureFamily → String
  | .hmac => "HMAC"
  | .rsa => "RSA"
  | .ec => "EC"

/-- A signature algorithm: a scheme and a hash function. -/
inductive SignatureAlgorithm where
  | hmac (hash : Hash)
  | pkcs1 (hash : Hash)
  | pss (hash : Hash)
  | ecdsa (hash : Hash)
  deriving DecidableEq, Repr

namespace SignatureAlgorithm

/-- The name in a token's header (alg). -/
def name : SignatureAlgorithm → String
  | hmac .sha256 => "HS256"
  | hmac .sha384 => "HS384"
  | hmac .sha512 => "HS512"
  | pkcs1 .sha256 => "RS256"
  | pkcs1 .sha384 => "RS384"
  | pkcs1 .sha512 => "RS512"
  | pss .sha256 => "PS256"
  | pss .sha384 => "PS384"
  | pss .sha512 => "PS512"
  | ecdsa .sha256 => "ES256"
  | ecdsa .sha384 => "ES384"
  | ecdsa .sha512 => "ES512"

def all : List SignatureAlgorithm :=
  Hash.all.map hmac ++ Hash.all.map pkcs1 ++ Hash.all.map pss ++ Hash.all.map ecdsa

def ofName? (name : String) : Option SignatureAlgorithm := all.find? (·.name == name)

def hash : SignatureAlgorithm → Hash
  | hmac hash => hash
  | pkcs1 hash => hash
  | pss hash => hash
  | ecdsa hash => hash

def family : SignatureAlgorithm → SignatureFamily
  | hmac _ => .hmac
  | pkcs1 _ => .rsa
  | pss _ => .rsa
  | ecdsa _ => .ec

/-- The curve that goes with a hash function in ECDSA. -/
def curveFor : Hash → Curve
  | .sha256 => .known .p256
  | .sha384 => .known .p384
  | .sha512 => .known .p521

/-- The curve that an algorithm's keys lie on. -/
def curve? : SignatureAlgorithm → Option Curve
  | ecdsa hash => some (curveFor hash)
  | _ => none

/-- The least number of bits in a secret for a hash function: as many as a digest has. -/
def leastSecretBits (hash : Hash) : Nat := 8 * hash.size

/-- The least number of bits in an algorithm's key; zero where any number will do. -/
def leastKeyBits : SignatureAlgorithm → Nat
  | hmac hash => leastSecretBits hash
  | _ => 0

/-- Whether an algorithm is RSASSA-PSS. -/
def isPss : SignatureAlgorithm → Bool
  | pss _ => true
  | _ => false

theorem ofName?_name (a : SignatureAlgorithm) : ofName? a.name = some a := by
  rcases a with h | h | h | h <;> cases h <;> decide

/-- What is found has exactly the name that was looked for. -/
theorem name_of_ofName? {name : String} {a : SignatureAlgorithm} (h : ofName? name = some a) :
    a.name = name := by
  simpa using List.find?_some h

end SignatureAlgorithm

end TokenCrypto
