import TokenCrypto.Aes.Cipher
import TokenCrypto.Mode.Padding

/-!
# Cipher block chaining

AES-CBC. Each block of a padded plaintext is added to the block of ciphertext before it, the first
to the IV, and then encrypted.

* `Cbc.unchain_chain`, `Cbc.chain_unchain`: chaining is undone, and undoes its undoing.
-/

namespace TokenCrypto.Cbc

open Aes (Block KeySchedule)

/-- Blocks encrypted one after the other, from the block `before` on, at first the IV. -/
def chain (encrypt : Block → Block) (before : Block) : List Block → List Block
  | [] => []
  | s :: rest =>
    let c := encrypt (s.add before)
    c :: chain encrypt c rest

/-- Blocks decrypted, each with the block of ciphertext before it. -/
def unchain (decrypt : Block → Block) (before : Block) : List Block → List Block
  | [] => []
  | c :: rest => (decrypt c).add before :: unchain decrypt c rest

theorem unchain_chain {encrypt decrypt : Block → Block} (inverse : ∀ s, decrypt (encrypt s) = s)
    (before : Block) (text : List Block) :
    unchain decrypt before (chain encrypt before text) = text := by
  induction text generalizing before with
  | nil => rfl
  | cons s rest ih => simp [chain, unchain, inverse, ih]

theorem chain_unchain {encrypt decrypt : Block → Block} (inverse : ∀ s, encrypt (decrypt s) = s)
    (before : Block) (text : List Block) :
    chain encrypt before (unchain decrypt before text) = text := by
  induction text generalizing before with
  | nil => rfl
  | cons c rest ih => simp [chain, unchain, inverse, ih]

def toBlocks (bytes : Bytes) : List Block := (Bytes.blocks 16 bytes).map Block.ofBytes

def ofBlocks (blocks : List Block) : Bytes := blocks.flatMap Block.toBytes

def encrypt (keys : KeySchedule) (iv text : Bytes) : Bytes :=
  ofBlocks (chain keys.encrypt (Block.ofBytes iv) (toBlocks (Padding.pad text)))

/-- The plaintext of a ciphertext, if that is whole blocks whose end decrypts to a padding. -/
def decrypt? (keys : KeySchedule) (iv encrypted : Bytes) : Option Bytes :=
  if encrypted.length % 16 = 0 then
    Padding.unpad? (ofBlocks (unchain keys.decrypt (Block.ofBytes iv) (toBlocks encrypted)))
  else none

end TokenCrypto.Cbc
