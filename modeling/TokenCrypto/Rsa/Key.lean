import TokenCrypto.Bytes
import TokenCrypto.Modular

/-!
# RSA keys

A public key and the operation that every RSA signature is checked with: the signature, read as a
number, is raised to the key's exponent.
-/

namespace TokenCrypto.Rsa

/-- A public key. -/
structure PublicKey where
  modulus : Nat
  exponent : Nat
  deriving DecidableEq, Repr

namespace PublicKey

def bits (key : PublicKey) : Nat := bitLength key.modulus

def size (key : PublicKey) : Nat := (key.bits + 7) / 8

/-- Whether a key is small enough to be used at all: the modulus has a greatest size, and a modulus
of more than 3072 bits goes with a short exponent only. -/
def isUsable (key : PublicKey) : Bool :=
  key.bits ≤ 16384 && (key.bits ≤ 3072 || bitLength key.exponent ≤ 64)

/-- The number that a signature was made from; none if the signature, as a number, is not below the
modulus. -/
def open? (key : PublicKey) (signature : Bytes) : Option Nat :=
  let number := Bytes.toNat signature
  if key.isUsable && number < key.modulus then
    some (Modular.pow key.modulus number key.exponent)
  else none

end PublicKey

end TokenCrypto.Rsa
