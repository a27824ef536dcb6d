import TokenCrypto.Hash

/-!
# HMAC

Message authentication (MAC) with a hash function and a secret: the message is hashed behind the
secret masked in one way, and that digest is hashed behind the secret masked in another.

* `Hmac.length_tag`: a tag has the size of the hash.
-/

namespace TokenCrypto.Hmac

/-- The secret as one block: hashed first if it is longer than that, then filled up with zeros. -/
def keyBlock (hash : Hash) (secret : Bytes) : Bytes :=
  let short := if secret.length ≤ hash.blockSize then secret else hash.digest secret
  short ++ List.replicate (hash.blockSize - short.length) 0

/-- The tag of a message under a secret. -/
def tag (hash : Hash) (secret message : Bytes) : Bytes :=
  let block := keyBlock hash secret
  let inner := hash.digest (block.map (· ^^^ 0x36) ++ message)
  hash.digest (block.map (· ^^^ 0x5c) ++ inner)

@[simp] theorem length_tag (hash : Hash) (secret message : Bytes) :
    (tag hash secret message).length = hash.size := by
  simp [tag]

end TokenCrypto.Hmac
