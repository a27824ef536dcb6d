import TokenCrypto.Hash

/-!
# Encryption methods

The methods an encrypted token may name as its enc. AES-GCM uses the shared key as it is; the
composite methods, of AES-CBC with HMAC, derive two keys from it: the CEK to encrypt the content
with, and the CIK to authenticate it with.

* `EncryptionMethod.ofName?_name`: each method is found by its name.
* `EncryptionMethod.name_of_ofName?`: what is found has exactly the name that was looked for.
-/

namespace TokenCrypto

/-- A method of AES-GCM. -/
inductive GcmMethod where
  | a128gcm
  | a256gcm
  deriving DecidableEq, Repr

/-- A composite method, of AES-CBC with HMAC. -/
inductive CompositeMethod where
  | a128cbcHs256
  | a256cbcHs512
  deriving DecidableEq, Repr

/-- An encryption method. -/
inductive EncryptionMethod where
  | gcm (method : GcmMethod)
  | composite (method : CompositeMethod)
  deriving DecidableEq, Repr

namespace CompositeMethod

def name : CompositeMethod → String
  | a128cbcHs256 => "A128CBC-HS256"
  | a256cbcHs512 => "A256CBC-HS512"

/-- The hash function, both for deriving CEK and CIK and for HMAC. -/
def hash : CompositeMethod → Hash
  | a128cbcHs256 => .sha256
  | a256cbcHs512 => .sha512

def keyBits : CompositeMethod → Nat
  | a128cbcHs256 => 256
  | a256cbcHs512 => 512

/-- Bits of the CEK. -/
def contentBits : CompositeMethod → Nat
  | a128cbcHs256 => 128
  | a256cbcHs512 => 256

/-- Bits of the CIK. -/
def integrityBits : CompositeMethod → Nat
  | a128cbcHs256 => 256
  | a256cbcHs512 => 512

/-- Octets in a tag: half a digest. -/
def tagSize (method : CompositeMethod) : Nat := method.hash.size / 2

end CompositeMethod

namespace GcmMethod

def name : GcmMethod → String
  | a128gcm => "A128GCM"
  | a256gcm => "A256GCM"

def keyBits : GcmMethod → Nat
  | a128gcm => 128
  | a256gcm => 256

end GcmMethod

namespace EncryptionMethod

def name : EncryptionMethod → String
  | gcm method => method.name
  | composite method => method.name

/-- All methods, in the order of their names. -/
def all : List EncryptionMethod :=
  [composite .a128cbcHs256, gcm .a128gcm, composite .a256cbcHs512, gcm .a256gcm]

def ofName? (name : String) : Option EncryptionMethod := all.find? (·.name == name)

def keyBits : EncryptionMethod → Nat
  | gcm method => method.keyBits
  | composite method => method.keyBits

def ivBits : EncryptionMethod → Nat
  | gcm _ => 96
  | composite _ => 128

def ivSize (method : EncryptionMethod) : Nat := method.ivBits / 8

def tagSize : EncryptionMethod → Nat
  | gcm _ => 16
  | composite method => method.tagSize

def composite? : EncryptionMethod → Option CompositeMethod
  | gcm _ => none
  | composite method => some method

theorem ofName?_name (m : EncryptionMethod) : ofName? m.name = some m := by
  rcases m with m | m <;> cases m <;> decide

/-- What is found has exactly the name that was looked for. -/
theorem name_of_ofName? {name : String} {m : EncryptionMethod} (h : ofName? name = some m) :
    m.name = name := by
  simpa using List.find?_some h

end EncryptionMethod

/-! ## Key management and compression -/

/-- The key management of a token (alg): the key is shared in advance. -/
inductive KeyManagement where
  | direct
  deriving DecidableEq, Repr

namespace KeyManagement

def name : KeyManagement → String
  | direct => "dir"

/-- All ways, in the order of their names. -/
def all : List KeyManagement := [direct]

end KeyManagement

/-- How a plaintext is compressed before it is encrypted (zip). -/
inductive CompressionAlgorithm where
  | deflate
  deriving DecidableEq, Repr

namespace CompressionAlgorithm

def name : CompressionAlgorithm → String
  | deflate => "DEF"

/-- All ways, in the order of their names. -/
def all : List CompressionAlgorithm := [deflate]

end CompressionAlgorithm

end TokenCrypto
