import TokenCrypto.Hash
import TokenCrypto.Rsa.Key

/-!
# RSA signatures, first scheme

RSASSA-PKCS1-v1_5. The signed octets are a digest behind the name of its hash function, filled up on
the left with a fixed pattern to the size of the modulus. There is one such string for a message, so
a signature is checked by comparing.
-/

namespace TokenCrypto.Rsa.Pkcs1

/-- The octets that name a hash function in front of its digest. -/
def digestHeader : Hash → Bytes
  | .sha256 => [0x30, 0x31, 0x30, 0x0d, 0x06, 0x09, 0x60, 0x86, 0x48, 0x01, 0x65, 0x03, 0x04,
      0x02, 0x01, 0x05, 0x00, 0x04, 0x20]
  | .sha384 => [0x30, 0x41, 0x30, 0x0d, 0x06, 0x09, 0x60, 0x86, 0x48, 0x01, 0x65, 0x03, 0x04,
      0x02, 0x02, 0x05, 0x00, 0x04, 0x30]
  | .sha512 => [0x30, 0x51, 0x30, 0x0d, 0x06, 0x09, 0x60, 0x86, 0x48, 0x01, 0x65, 0x03, 0x04,
      0x02, 0x03, 0x05, 0x00, 0x04, 0x40]

/-- The octets that are signed for a message, `size` of them; none if fewer than eight would be left
for the pattern. -/
def encoding? (hash : Hash) (size : Nat) (message : Bytes) : Option Bytes :=
  let digest := digestHeader hash ++ hash.digest message
  if digest.length + 11 ≤ size then
    some ([0x00, 0x01] ++ List.replicate (size - digest.length - 3) 0xff ++ [0x00] ++ digest)
  else none

/-- Whether a signature of the size of the modulus was made for a message. -/
def verify (key : PublicKey) (hash : Hash) (message signature : Bytes) : Bool :=
  signature.length == key.size &&
    match key.open? signature, encoding? hash key.size message with
    | some number, some expected => Bytes.ofNat key.size number == expected
    | _, _ => false

end TokenCrypto.Rsa.Pkcs1
