import TokenCrypto.Hash
import TokenCrypto.Rsa.Key

/-!
# RSA signatures, probabilistic scheme

RSASSA-PSS. The signed octets are a masked block, a digest and a closing octet. The mask (MGF1)
comes from the digest; under it are zeros, a one and the salt; and the digest is that of the
message's digest and the salt. The salt is as long as a digest.

A signature is taken as a number, so octets that are zero at its front may be missing.
-/

namespace TokenCrypto.Rsa.Pss

/-- A mask of `length` octets from a seed (MGF1): digests of the seed and a counter, one after the
other. -/
def mask (hash : Hash) (seed : Bytes) (length : Nat) : Bytes :=
  ((List.range ((length + hash.size - 1) / hash.size)).flatMap fun counter =>
    hash.digest (seed ++ Bytes.ofNat 4 counter)).take length

/-- The first octet of a text with only its low `bits` bits kept. -/
def keepLow (bits : Nat) : Bytes → Bytes
  | [] => []
  | b :: rest => UInt8.ofNat (b.toNat % 1 <<< bits) :: rest

/-- The salt of an unmasked block: the last octets, if a one and nothing but zeros stand before
them. -/
def salt? (hash : Hash) (block : Bytes) : Option Bytes :=
  let front := block.take (block.length - hash.size)
  if front = List.replicate (front.length - 1) 0 ++ [1] then
    some (block.drop (block.length - hash.size))
  else none

/-- The digest of the message's digest and a salt. -/
def saltedDigest (hash : Hash) (message salt : Bytes) : Bytes :=
  hash.digest (List.replicate 8 0 ++ hash.digest message ++ salt)

/-- Whether octets are a signed form of a message. The first octet has `topBits` bits that may be
set, all eight of them if `topBits` is zero. -/
def isEncoding (hash : Hash) (topBits : Nat) (message encoded : Bytes) : Bool :=
  let length := encoded.length
  if length < 2 * hash.size + 2 then false
  else
    let masked := encoded.take (length - hash.size - 1)
    let digest := (encoded.drop (length - hash.size - 1)).take hash.size
    let block := Bytes.xor masked (mask hash digest masked.length)
    let block := if topBits = 0 then block else keepLow topBits block
    encoded.getLast? == some 0xbc &&
      match salt? hash block with
      | some salt => saltedDigest hash message salt == digest
      | none => false

/-- Whether the octets that a signature was made from are a signed form of a message: the bits above
the modulus are not set, and a modulus of a whole number of octets and one bit has one octet more,
which is zero. -/
def isSigned (key : PublicKey) (hash : Hash) (message encoded : Bytes) : Bool :=
  let topBits := (key.bits - 1) % 8
  match encoded with
  | [] => false
  | first :: rest =>
    first.toNat < 1 <<< topBits
      && isEncoding hash topBits message (if topBits = 0 then rest else encoded)

/-- Whether a modulus has room for a digest. -/
def hasRoom (key : PublicKey) (hash : Hash) : Bool := hash.size + 2 ≤ key.size

/-- Whether a signature was made for a message. -/
def verify (key : PublicKey) (hash : Hash) (message signature : Bytes) : Bool :=
  signature.length ≤ key.size &&
    match key.open? signature with
    | some number => isSigned key hash message (Bytes.ofNat key.size number)
    | none => false

end TokenCrypto.Rsa.Pss
