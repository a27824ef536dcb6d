import TokenCrypto.Text.Base64Url

/-!
# Parts of an encrypted token

The texts that travel beside the header: the encrypted key, the IV, the ciphertext and the
authentication tag, each of which may be missing. A token in direct mode has no encrypted key: the
part is missing or empty.

* `Parts.encryptedKeyText_ofSealed`: parts made in direct mode have an empty encrypted key.
-/

namespace TokenCrypto

/-- A ciphertext and its authentication tag. -/
structure Sealed where
  ciphertext : Bytes
  tag : Bytes
  deriving DecidableEq, Repr

/-- The parts of an encrypted token, as Base64URL texts on the wire. -/
structure Parts where
  encryptedKey : Option String := none
  iv : Option String := none
  ciphertext : Option String := none
  tag : Option String := none
  deriving DecidableEq, Repr

namespace Parts

/-- The encrypted key as it is authenticated: a missing one is an empty text. -/
def encryptedKeyText (parts : Parts) : String := parts.encryptedKey.getD ""

/-- The parts for an IV, a ciphertext and its tag, in direct mode. -/
def ofSealed (iv : Bytes) (result : Sealed) : Parts where
  encryptedKey := some ""
  iv := some (Base64Url.encode iv)
  ciphertext := some (Base64Url.encode result.ciphertext)
  tag := some (Base64Url.encode result.tag)

/-- Parts made in direct mode have an empty encrypted key. -/
@[simp] theorem encryptedKeyText_ofSealed (iv : Bytes) (result : Sealed) :
    (ofSealed iv result).encryptedKeyText = "" := rfl

end Parts

end TokenCrypto
