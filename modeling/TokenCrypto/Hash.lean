import TokenCrypto.Hash.Sha2

/-!
# Hash functions

The three hash functions that signatures, key derivation and message authentication are built on.

* `Hash.length_digest`: a digest has exactly the function's output size.
-/

namespace TokenCrypto

/-- A hash function. -/
inductive Hash where
  | sha256
  | sha384
  | sha512
  deriving DecidableEq, Repr

namespace Hash

def all : List Hash := [.sha256, .sha384, .sha512]

/-- The name by which a hash function is selected. -/
def name : Hash → String
  | .sha256 => "SHA256"
  | .sha384 => "SHA384"
  | .sha512 => "SHA512"

def ofName? (name : String) : Option Hash := all.find? (·.name == name)

def size : Hash → Nat
  | .sha256 => 32
  | .sha384 => 48
  | .sha512 => 64

/-- Octets in a block of input. -/
def blockSize : Hash → Nat
  | .sha256 => 64
  | .sha384 => 128
  | .sha512 => 128

def digest : Hash → Bytes → Bytes
  | .sha256, message => Sha2.hash Sha2.first256 message
  | .sha384, message => (Sha2.hash Sha2.first384 message).take 48
  | .sha512, message => Sha2.hash Sha2.first512 message

@[simp] theorem length_digest (h : Hash) (message : Bytes) :
    (h.digest message).length = h.size := by
  cases h <;> simp [digest, size, Sha2.Scheme.width]

end Hash

end TokenCrypto
