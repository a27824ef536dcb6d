import TokenCrypto.Aes.Cipher

/-!
# Galois/counter mode

AES-GCM. A plaintext is masked with the encryptions of successive counters, which gives the
ciphertext, and a tag is found from the AAD and the ciphertext by a polynomial over the field of
2¹²⁸ elements (GHASH). Ciphertext and tag come as one string of octets, whose last sixteen are the
tag.

* `Gcm.length_encrypt`: the result is sixteen octets longer than the plaintext.
-/

namespace TokenCrypto.Gcm

open Aes (Block KeySchedule)

/-! ## The field -/

/-- An element of the field: bit `i` from the left is the coefficient of the `i`th power. -/
abbrev Element := BitVec 128

/-- The field's polynomial without its leading power. -/
def reduction : Element := 0xe1#128 <<< 120

/-- The product with the first power: all bits one place to the right, and the polynomial for a bit
that leaves. -/
def next (v : Element) : Element :=
  if v.getLsbD 0 then (v >>> 1) ^^^ reduction else v >>> 1

/-- The product of two elements, power by power of the first. -/
def mul (x y : Element) : Element :=
  ((List.range 128).foldl
    (fun acc i => (if x.getMsbD i then acc.1 ^^^ acc.2 else acc.1, next acc.2)) (0#128, y)).1

/-- The element of at most sixteen octets, zeros added on the right. -/
def ofBytes (bytes : Bytes) : Element :=
  BitVec.ofNat 128 (Bytes.toNat (bytes ++ List.replicate (16 - bytes.length) 0))

/-! ## The tag -/

def elements (bytes : Bytes) : List Element := (Bytes.blocks 16 bytes).map ofBytes

/-- The element that holds the lengths of AAD and ciphertext, in bits. -/
def lengths (data masked : Bytes) : Element :=
  ofBytes (Bytes.ofNat 8 (8 * data.length) ++ Bytes.ofNat 8 (8 * masked.length))

/-- The polynomial with the given coefficients, but no constant one, at the point `h`. -/
def evaluate (h : Element) (coefficients : List Element) : Element :=
  coefficients.foldl (fun sum c => mul (sum ^^^ c) h) 0#128

/-- GHASH, the keyed digest of AAD and ciphertext. -/
def digest (h : Element) (data masked : Bytes) : Element :=
  evaluate h (elements data ++ elements masked ++ [lengths data masked])

/-! ## Counters -/

/-- The counter block of an IV of twelve octets. -/
def counterBlock (iv : Bytes) (counter : Nat) : Block :=
  Block.ofBytes (iv ++ Bytes.ofNat 4 counter)

/-- Encrypted counters from the second on, enough for a text of `length` octets. -/
def mask (keys : KeySchedule) (iv : Bytes) (length : Nat) : Bytes :=
  (List.range ((length + 15) / 16)).flatMap fun i =>
    (keys.encrypt (counterBlock iv (i + 2))).toBytes

/-- The ciphertext of a plaintext; masking again gives the plaintext back. -/
def masked (keys : KeySchedule) (iv text : Bytes) : Bytes :=
  Bytes.xor text (mask keys iv text.length)

/-! ## Sealing -/

def tagSize : Nat := 16

/-- The tag of AAD and ciphertext. -/
def tag (keys : KeySchedule) (iv data hidden : Bytes) : Bytes :=
  let h := ofBytes (keys.encrypt (Block.ofBytes (List.replicate 16 0))).toBytes
  let sum := digest h data hidden ^^^ ofBytes (keys.encrypt (counterBlock iv 1)).toBytes
  Bytes.ofNat tagSize sum.toNat

def encrypt (keys : KeySchedule) (iv data text : Bytes) : Bytes :=
  let hidden := masked keys iv text
  hidden ++ tag keys iv data hidden

/-- The plaintext, if the last sixteen octets are the tag of the ciphertext before them. -/
def decrypt? (keys : KeySchedule) (iv data closed : Bytes) : Option Bytes :=
  if tagSize ≤ closed.length then
    let hidden := closed.take (closed.length - tagSize)
    if closed.drop (closed.length - tagSize) = tag keys iv data hidden then
      some (masked keys iv hidden)
    else none
  else none

@[simp] theorem length_tag (keys : KeySchedule) (iv data hidden : Bytes) :
    (tag keys iv data hidden).length = tagSize := by simp [tag]

theorem le_length_mask (keys : KeySchedule) (iv : Bytes) (length : Nat) :
    length ≤ (mask keys iv length).length := by
  simp only [mask, List.length_flatMap, Aes.Block.length_toBytes, List.map_const',
    List.length_range, List.sum_replicate_nat]
  omega

@[simp] theorem length_masked (keys : KeySchedule) (iv text : Bytes) :
    (masked keys iv text).length = text.length := by
  have := le_length_mask keys iv text.length
  simp only [masked, Bytes.length_xor]
  omega

@[simp] theorem length_encrypt (keys : KeySchedule) (iv data text : Bytes) :
    (encrypt keys iv data text).length = text.length + tagSize := by
  simp [encrypt]

end TokenCrypto.Gcm
