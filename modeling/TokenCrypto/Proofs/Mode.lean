import TokenCrypto.Mode.Cbc
import TokenCrypto.Mode.Gcm

/-!
# Modes are undone

What a mode of operation has encrypted, it decrypts, and it decrypts nothing else: AES-CBC takes a
ciphertext exactly if it is the encryption of what comes out, AES-GCM exactly if the last octets are
the one tag of the octets before them.

* `Cbc.length_encrypt`: how long AES-CBC makes a plaintext.
* `Cbc.decrypt?_eq_some_iff`: AES-CBC decrypts exactly what it encrypts.
* `Gcm.decrypt?_append`: behind a ciphertext, one string of sixteen octets is taken for its tag.
* `Gcm.decrypt?_eq_some_iff`: AES-GCM decrypts exactly what it encrypts.
-/

namespace TokenCrypto

/-! ## AES-CBC -/

namespace Cbc

open Aes (Block KeySchedule)

@[simp] theorem length_ofBlocks (blocks : List Block) :
    (ofBlocks blocks).length = 16 * blocks.length := by
  induction blocks with
  | nil => rfl
  | cons s rest ih =>
    simp only [ofBlocks, List.flatMap_cons, List.length_append, Block.length_toBytes,
      List.length_cons] at ih ⊢
    omega

@[simp] theorem toBlocks_ofBlocks (blocks : List Block) : toBlocks (ofBlocks blocks) = blocks := by
  induction blocks with
  | nil => simp [toBlocks, ofBlocks]
  | cons s rest ih =>
    have first : ofBlocks (s :: rest) = s.toBytes ++ ofBlocks rest := rfl
    have some_octets : ofBlocks (s :: rest) ≠ [] := by
      intro none_left
      have := congrArg List.length none_left
      simp at this
    have take_first : (ofBlocks (s :: rest)).take 16 = s.toBytes := by
      rw [first, List.take_left' s.length_toBytes]
    have drop_first : (ofBlocks (s :: rest)).drop 16 = ofBlocks rest := by
      rw [first, List.drop_left' s.length_toBytes]
    rw [toBlocks, Bytes.blocks_of_ne_nil (by decide) some_octets, take_first, drop_first,
      List.map_cons, Block.ofBytes_toBytes]
    exact congrArg (s :: ·) ih

theorem ofBlocks_toBlocks {bytes : Bytes} (whole : bytes.length % 16 = 0) :
    ofBlocks (toBlocks bytes) = bytes := by
  -- A block is cut off the front each time, so the induction is on the length.
  induction n : bytes.length using Nat.strongRecOn generalizing bytes with
  | ind n ih =>
    by_cases empty : bytes = []
    · subst empty
      simp [toBlocks, ofBlocks]
    · have pos := List.length_pos_iff.2 empty
      have rest := ih (bytes.drop 16).length (by rw [List.length_drop]; omega)
        (by rw [List.length_drop]; omega) rfl
      have first : (Block.ofBytes (bytes.take 16)).toBytes = bytes.take 16 :=
        Block.toBytes_ofBytes (by rw [List.length_take]; omega)
      rw [toBlocks, Bytes.blocks_of_ne_nil (by decide) empty, List.map_cons]
      show (Block.ofBytes (bytes.take 16)).toBytes ++ ofBlocks (toBlocks (bytes.drop 16)) = bytes
      rw [rest, first, List.take_append_drop]

@[simp] theorem length_chain (encrypt : Block → Block) (before : Block) (text : List Block) :
    (chain encrypt before text).length = text.length := by
  induction text generalizing before with
  | nil => rfl
  | cons s rest ih => rw [chain, List.length_cons, ih, List.length_cons]

theorem length_pad_mod (text : Bytes) : (Padding.pad text).length % 16 = 0 := by
  rw [Padding.length_pad]
  omega

/-- A ciphertext of AES-CBC fills one block more than the plaintext does. -/
theorem length_encrypt (keys : KeySchedule) (iv text : Bytes) :
    (encrypt keys iv text).length = 16 * (text.length / 16 + 1) := by
  calc (encrypt keys iv text).length
    _ = 16 * (toBlocks (Padding.pad text)).length := by rw [encrypt, length_ofBlocks, length_chain]
    _ = (ofBlocks (toBlocks (Padding.pad text))).length := (length_ofBlocks _).symm
    _ = (Padding.pad text).length := by rw [ofBlocks_toBlocks (length_pad_mod text)]
    _ = 16 * (text.length / 16 + 1) := Padding.length_pad text

/-- AES-CBC decrypts exactly what it encrypts. -/
theorem decrypt?_eq_some_iff (keys : KeySchedule) (iv encrypted text : Bytes) :
    decrypt? keys iv encrypted = some text ↔ encrypted = encrypt keys iv text := by
  constructor
  · intro h
    unfold decrypt? at h
    split at h
    · next whole =>
      -- What is unpadded was padded, and chaining undoes its undoing.
      have padded := Padding.eq_pad_of_unpad? (by rw [length_ofBlocks]; omega) h
      rw [encrypt, ← padded, toBlocks_ofBlocks, chain_unchain keys.encrypt_decrypt,
        ofBlocks_toBlocks whole]
    · cases h
  · rintro rfl
    have whole : (encrypt keys iv text).length % 16 = 0 := by
      rw [encrypt, length_ofBlocks]
      omega
    rw [decrypt?, if_pos whole, encrypt, toBlocks_ofBlocks, unchain_chain keys.decrypt_encrypt,
      ofBlocks_toBlocks (length_pad_mod text), Padding.unpad?_pad]

end Cbc

/-! ## AES-GCM -/

namespace Gcm

open Aes (KeySchedule)

@[simp] theorem masked_masked (keys : KeySchedule) (iv text : Bytes) :
    masked keys iv (masked keys iv text) = text := by
  have enough := le_length_mask keys iv text.length
  rw [masked, length_masked]
  exact Bytes.xor_xor_cancel text _ enough

/-- Behind a ciphertext, one string of sixteen octets is taken for its tag. -/
theorem decrypt?_append (keys : KeySchedule) (iv data hidden : Bytes) {last : Bytes}
    (full : last.length = tagSize) :
    decrypt? keys iv data (hidden ++ last) =
      if last = tag keys iv data hidden then some (masked keys iv hidden) else none := by
  have cut : (hidden ++ last).length - tagSize = hidden.length := by
    rw [List.length_append, full, Nat.add_sub_cancel]
  have enough : tagSize ≤ (hidden ++ last).length := by
    rw [List.length_append, full]
    exact Nat.le_add_left ..
  rw [decrypt?, if_pos enough, cut]
  simp only [List.take_left, List.drop_left]

/-- AES-GCM decrypts what it encrypts. -/
theorem decrypt?_encrypt (keys : KeySchedule) (iv data text : Bytes) :
    decrypt? keys iv data (encrypt keys iv data text) = some text := by
  rw [encrypt, decrypt?_append _ _ _ _ (length_tag ..), if_pos rfl, masked_masked]

theorem tagSize_le_of_decrypt? {keys : KeySchedule} {iv data closed text : Bytes}
    (h : decrypt? keys iv data closed = some text) : tagSize ≤ closed.length := by
  by_cases enough : tagSize ≤ closed.length
  · exact enough
  · rw [decrypt?, if_neg enough] at h
    cases h

/-- AES-GCM decrypts exactly what it encrypts. -/
theorem decrypt?_eq_some_iff (keys : KeySchedule) (iv data closed text : Bytes) :
    decrypt? keys iv data closed = some text ↔ closed = encrypt keys iv data text := by
  constructor
  · intro h
    have enough := tagSize_le_of_decrypt? h
    have cut : closed.take (closed.length - tagSize) ++ closed.drop (closed.length - tagSize)
        = closed := List.take_append_drop ..
    have full : (closed.drop (closed.length - tagSize)).length = tagSize := by
      rw [List.length_drop]
      omega
    rw [← cut] at h ⊢
    rw [decrypt?_append _ _ _ _ full] at h
    split at h
    · next right =>
      -- Masking the text again gives back what was masked, and so the same tag.
      obtain rfl := Option.some.inj h
      rw [encrypt, masked_masked, ← right]
    · cases h
  · rintro rfl
    exact decrypt?_encrypt keys iv data text

end Gcm

end TokenCrypto
