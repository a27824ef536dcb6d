import TokenCrypto.Proofs.ContentEncryption

/-!
# What is decrypted was encrypted

With the keys, the IV and the header fixed, encrypting in a composite method is one to one, and
decrypting undoes it on what it yields and refuses all else: a plaintext comes out of a ciphertext
and a tag exactly if encrypting that plaintext yields the two. So no second ciphertext, tag or
padding stands for the same plaintext. AES-GCM does the same with a ciphertext and the tag behind
it, which it takes as one string of octets.

* `Aead.decrypt_eq_ok_iff_joined`: in AES-GCM decrypting is the partial inverse of encrypting, up to
  where ciphertext and tag are cut apart.
* `Cbc.exists_text_iff`: which octets are the ciphertext of some plaintext, told by their padding.
* `CompositeMethod.decrypt_eq_ok_iff_encrypt`: decrypting is the partial inverse of encrypting, and
  what is told where there is nothing to undo.
-/

namespace TokenCrypto

/-! ## AES-GCM -/

namespace Aead

variable {key iv : Bytes}

/-- What comes of a ciphertext and a tag under a key and an IV. -/
def outcome (key iv data : Bytes) (result : Sealed) : Except Error Bytes :=
  decrypt (.octets key) (.octets result.ciphertext) (.octets data) (.octets result.tag) (.octets iv)

theorem outcome_eq_ok_iff (sized : key.length = 16 ∨ key.length = 32) (full : iv.length = ivSize)
    {data text : Bytes} {result : Sealed} :
    outcome key iv data result = .ok text ↔
      Within text.length data.length
        ∧ result.ciphertext ++ result.tag = Gcm.encrypt (Aes.schedule key) iv data text := by
  rw [outcome, decrypt_octets sized full, openText_eq_ok_iff]

/-- Within the limit, and without a plaintext to be found, it is the tag that is told about. -/
theorem outcome_of_no_text (sized : key.length = 16 ∨ key.length = 32)
    (full : iv.length = ivSize) {data : Bytes} {result : Sealed}
    (within : Within ((result.ciphertext ++ result.tag).length - Gcm.tagSize) data.length)
    (none_found : ∀ text, result.ciphertext ++ result.tag ≠
      Gcm.encrypt (Aes.schedule key) iv data text) :
    outcome key iv data result = reject .forgedGcmTag := by
  rw [outcome, decrypt_octets sized full, openText_of_within within]
  cases opened : Gcm.decrypt? (Aes.schedule key) iv data (result.ciphertext ++ result.tag) with
  | some text => exact absurd ((Gcm.decrypt?_eq_some_iff _ _ _ _ _).1 opened) (none_found text)
  | none => rfl

/-- In AES-GCM decrypting is the partial inverse of encrypting. Every plaintext within the limit is
encrypted, to a ciphertext of its length and a tag of sixteen octets. A plaintext comes out of a
ciphertext and a tag exactly if the two, one behind the other, are what encrypting it yields. All
else within the limit is told to be forged, and so is all that is shorter than a tag. Beyond the
limit encrypting is refused, and decrypting is a fault. -/
theorem decrypt_eq_ok_iff_joined {key iv : Bytes} (sized : key.length = 16 ∨ key.length = 32)
    (full : iv.length = 12) (data : Bytes) :
    (∀ text : Bytes, Within text.length data.length →
      ∃ made, encrypt (.octets key) (.octets text) (.octets data) (.octets iv) = .ok made
        ∧ made.ciphertext.length = text.length ∧ made.tag.length = 16)
    ∧ (∀ text : Bytes, ¬ Within text.length data.length →
      encrypt (.octets key) (.octets text) (.octets data) (.octets iv) = reject .tooLongForGcm)
    ∧ ∀ result : Sealed,
      (∀ text, outcome key iv data result = .ok text ↔
        ∃ made, encrypt (.octets key) (.octets text) (.octets data) (.octets iv) = .ok made
          ∧ result.ciphertext ++ result.tag = made.ciphertext ++ made.tag)
      ∧ (Within ((result.ciphertext ++ result.tag).length - 16) data.length →
        (∀ text made,
          encrypt (.octets key) (.octets text) (.octets data) (.octets iv) = .ok made →
          result.ciphertext ++ result.tag ≠ made.ciphertext ++ made.tag) →
        outcome key iv data result = reject .forgedGcmTag
          ∧ Rejection.forgedGcmTag.report.category = .integrity)
      ∧ ((result.ciphertext ++ result.tag).length < 16 →
        outcome key iv data result = reject .forgedGcmTag)
      ∧ (16 ≤ (result.ciphertext ++ result.tag).length →
        ¬ Within ((result.ciphertext ++ result.tag).length - 16) data.length →
        outcome key iv data result = fail .tooLongForGcm) := by
  have octets : (Material.octets iv).bytes? = some iv := rfl
  have made_of (text : Bytes) (within : Within text.length data.length) :
      encrypt (.octets key) (.octets text) (.octets data) (.octets iv) =
        .ok (split (Gcm.encrypt (Aes.schedule key) iv data text)) := by
    rw [encrypt_octets sized octets full, if_pos within]
  refine ⟨?_, ?_, ?_⟩
  · intro text within
    have lengths := lengths_split_encrypt (Aes.schedule key) iv data text
    exact ⟨_, made_of text within, lengths.1, lengths.2⟩
  · intro text beyond
    rw [encrypt_octets sized octets full, if_neg beyond]
  · intro result
    refine ⟨?_, ?_, ?_, ?_⟩
    · intro text
      rw [outcome_eq_ok_iff sized full]
      constructor
      · rintro ⟨within, same⟩
        exact ⟨_, made_of text within, by rw [same, split_append]⟩
      · rintro ⟨made, encrypted, same⟩
        obtain ⟨-, bytes, octets', -, within, rfl⟩ := encrypt_eq_ok_iff.1 encrypted
        obtain rfl : iv = bytes := Option.some.inj (octets.symm.trans octets')
        rw [split_append] at same
        exact ⟨within, same⟩
    · intro within none_made
      refine ⟨outcome_of_no_text sized full within ?_, rfl⟩
      intro text same
      -- A plaintext that was found would be as long as what is within the limit.
      have length_eq : (result.ciphertext ++ result.tag).length - 16 = text.length := by
        rw [same, Gcm.length_encrypt, Gcm.tagSize, Nat.add_sub_cancel]
      refine none_made text _ (made_of text (length_eq ▸ within)) ?_
      rw [split_append, same]
    · intro short
      rw [outcome, decrypt_octets sized full, openText_of_short short]
    · intro enough beyond
      rw [outcome, decrypt_octets sized full, openText_of_beyond enough beyond]

/-- Two octets encrypted; the cut between ciphertext and tag is in another place. The last octet of
the tag alone is not taken. -/
theorem decrypt_eq_ok_iff_joined_other_cut :
    ((List.replicate 16 (0 : UInt8)).length = 16 ∨ (List.replicate 16 (0 : UInt8)).length = 32)
    ∧ (List.replicate 12 (0 : UInt8)).length = 12
    ∧ outcome (List.replicate 16 0) (List.replicate 12 0) [1, 2]
        ⟨[66], [202, 29, 56, 193, 84, 93, 54, 204, 102, 26, 24, 20, 238, 62, 218, 158, 109]⟩
          = .ok [65, 66]
    ∧ outcome (List.replicate 16 0) (List.replicate 12 0) [1, 2] ⟨[], [109]⟩
        = reject .forgedGcmTag := by
  have sized : (List.replicate 16 (0 : UInt8)).length = 16
      ∨ (List.replicate 16 (0 : UInt8)).length = 32 := by decide
  have full : (List.replicate 12 (0 : UInt8)).length = 12 := by decide
  obtain ⟨-, -, told⟩ := decrypt_eq_ok_iff_joined sized full [1, 2]
  refine ⟨sized, full, ?_, (told ⟨[], [109]⟩).2.2.1 (by decide)⟩
  exact ((told _).1 [65, 66]).2
    ⟨⟨[66, 202], [29, 56, 193, 84, 93, 54, 204, 102, 26, 24, 20, 238, 62, 218, 158, 109]⟩,
      by decide +kernel, rfl⟩

end Aead

/-! ## Paddings -/

namespace Padding

/-- A text that ends in a padding: one to sixteen octets, each of them their number. -/
def Closed (bytes : Bytes) : Prop :=
  ∃ text n, 1 ≤ n ∧ n ≤ 16 ∧ bytes = text ++ List.replicate n (UInt8.ofNat n)

theorem unpad?_append {text : Bytes} {n : Nat} (pos : 1 ≤ n) (le : n ≤ 16) :
    unpad? (text ++ List.replicate n (UInt8.ofNat n)) = some text := by
  have back : (UInt8.ofNat n).toNat = n := by
    rw [UInt8.toNat_ofNat']
    exact Nat.mod_eq_of_lt (by omega)
  have last : (text ++ List.replicate n (UInt8.ofNat n)).getLast? = some (UInt8.ofNat n) := by
    obtain ⟨m, rfl⟩ : ∃ m, n = m + 1 := ⟨n - 1, by omega⟩
    rw [List.replicate_succ', ← List.append_assoc, List.getLast?_concat]
  have kept : (text ++ List.replicate n (UInt8.ofNat n)).length - n = text.length := by
    rw [List.length_append, List.length_replicate, Nat.add_sub_cancel]
  unfold unpad?
  rw [last]
  simp only [back, kept]
  rw [if_pos ⟨pos, le, by simp, List.drop_left⟩, List.take_left]

/-- A padding can be taken off exactly where there is one. -/
theorem exists_unpad?_iff {bytes : Bytes} : (∃ text, unpad? bytes = some text) ↔ Closed bytes := by
  constructor
  · rintro ⟨text, h⟩
    unfold unpad? at h
    split at h
    · cases h
    · next last _ =>
      simp only at h
      split at h
      · next hc =>
        obtain ⟨pos, le, -, copies⟩ := hc
        refine ⟨bytes.take (bytes.length - last.toNat), last.toNat, pos, le, ?_⟩
        rw [UInt8.ofNat_toNat, ← copies, List.take_append_drop]
      · cases h
  · rintro ⟨text, n, pos, le, rfl⟩
    exact ⟨text, unpad?_append pos le⟩

theorem not_closed_nil : ¬ Closed [] := by
  rintro ⟨text, n, pos, -, same⟩
  have := congrArg List.length same
  simp only [List.length_nil, List.length_append, List.length_replicate] at this
  omega

end Padding

/-! ## AES-CBC -/

namespace Cbc

open Aes (Block KeySchedule)

/-- What is under a ciphertext: the plaintext and its padding, if it is the ciphertext of one. -/
def under (keys : KeySchedule) (iv encrypted : Bytes) : Bytes :=
  ofBlocks (unchain keys.decrypt (Block.ofBytes iv) (toBlocks encrypted))

theorem under_nil (keys : KeySchedule) (iv : Bytes) : under keys iv [] = [] := by
  rw [under, toBlocks, Bytes.blocks_nil]
  rfl

/-- The ciphertexts of plaintexts are blocks, one at least, with a padding under them. -/
theorem exists_text_iff (keys : KeySchedule) (iv encrypted : Bytes) :
    (∃ text, encrypted = encrypt keys iv text) ↔
      encrypted ≠ [] ∧ encrypted.length % 16 = 0 ∧ Padding.Closed (under keys iv encrypted) := by
  simp only [← decrypt?_eq_some_iff]
  constructor
  · rintro ⟨text, h⟩
    unfold decrypt? at h
    split at h
    · next whole =>
      have closed : Padding.Closed (under keys iv encrypted) :=
        Padding.exists_unpad?_iff.1 ⟨text, h⟩
      refine ⟨?_, whole, closed⟩
      rintro rfl
      rw [under_nil] at closed
      exact Padding.not_closed_nil closed
    · cases h
  · rintro ⟨-, whole, closed⟩
    obtain ⟨text, unpadded⟩ := Padding.exists_unpad?_iff.2 closed
    refine ⟨text, ?_⟩
    rw [decrypt?, if_pos whole]
    exact unpadded

end Cbc

/-! ## Composite methods -/

namespace CompositeMethod

variable {method : CompositeMethod} {secret : Bytes} {header : JweHeader} {encryptedKey : String}

section

variable {iv hidden : Bytes} {pair : KeyPair}

theorem openText_eq_ok_iff (method : CompositeMethod) {text : Bytes} :
    method.openText pair iv hidden = .ok text ↔
      hidden = Cbc.encrypt (Aes.schedule pair.content) iv text := by
  rw [← Cbc.decrypt?_eq_some_iff]
  unfold openText
  cases Cbc.decrypt? (Aes.schedule pair.content) iv hidden with
  | some opened => simp
  | none => simp

/-- Without a text to be found, it is the padding that is told about. -/
theorem openText_of_no_text (none_found : ∀ text, hidden ≠ Cbc.encrypt (Aes.schedule pair.content)
    iv text) : method.openText pair iv hidden = reject (.badPadding method) := by
  unfold openText
  cases opened : Cbc.decrypt? (Aes.schedule pair.content) iv hidden with
  | some text => exact absurd ((Cbc.decrypt?_eq_some_iff _ _ _ _).1 opened) (none_found text)
  | none => rfl

end

/-- What comes of a ciphertext and a tag, handed on with the IV in the form in which they travel. -/
def outcome (method : CompositeMethod) (secret : Bytes) (header : JweHeader) (encryptedKey : String)
    (iv : Bytes) (result : Sealed) : Except Error Bytes :=
  method.decrypt (.octets secret) header encryptedKey (Base64Url.encode iv)
    (Base64Url.encode result.ciphertext) (.octets result.tag)

/-- Decrypting is the partial inverse of encrypting. A plaintext comes out of a ciphertext and a tag
exactly if encrypting it yields the two. Otherwise the tag is told about if it is not the left half
of the HMAC under the CIK, and the padding if the ciphertext is that of no plaintext. -/
theorem decrypt_eq_ok_iff_encrypt (method : CompositeMethod) (secret : Bytes) {header : JweHeader}
    (plain : Ascii.Plain header.serialized) (fit : header.PartiesFit) {encryptedKey : String}
    (plain_key : Ascii.Plain encryptedKey) {iv : Bytes} (sized : iv.length = 16) :
    ∃ pair, method.keys (.octets secret) header = .ok pair
    ∧ (∀ text, ∃ result,
        method.encrypt (.octets secret) (.octets text) (.octets iv) header encryptedKey = .ok result)
    ∧ ∀ result : Sealed,
      (∀ text, method.outcome secret header encryptedKey iv result = .ok text ↔
        method.encrypt (.octets secret) (.octets text) (.octets iv) header encryptedKey
          = .ok result)
      ∧ ∃ input, macInput header.serialized encryptedKey (Base64Url.encode iv)
          (Base64Url.encode result.ciphertext) = .ok input
        ∧ (result.tag ≠ (Hmac.tag method.hash pair.integrity input).take (method.hash.size / 2) →
          method.outcome secret header encryptedKey iv result = reject (.forgedTag method)
            ∧ (Rejection.forgedTag method).report.category = .integrity)
        ∧ (result.tag = (Hmac.tag method.hash pair.integrity input).take (method.hash.size / 2) →
          (∀ text, result.ciphertext ≠ Cbc.encrypt (Aes.schedule pair.content) iv text) →
          method.outcome secret header encryptedKey iv result = reject (.badPadding method)
            ∧ (Rejection.badPadding method).report.category = .decryption)
        ∧ ((∀ text, result.ciphertext ≠ Cbc.encrypt (Aes.schedule pair.content) iv text) ↔
          result.ciphertext = [] ∨ result.ciphertext.length % 16 ≠ 0
            ∨ ¬ Padding.Closed (Cbc.under (Aes.schedule pair.content) iv result.ciphertext)) := by
  obtain ⟨pair, derived⟩ := method.keys_of_fit secret fit
  refine ⟨pair, derived, exists_encrypt plain plain_key sized derived, ?_⟩
  rintro ⟨hidden, tag⟩
  obtain ⟨input, written⟩ := macInput_of_plain plain plain_key (Base64Url.plain_encode iv)
    (Base64Url.plain_encode hidden)
  have outcome_eq : method.outcome secret header encryptedKey iv ⟨hidden, tag⟩ = _ :=
    decrypt_of_keys (wireBytes_encode iv) sized (wireBytes_encode hidden) derived written tag
  refine ⟨?_, input, written, ?_, ?_, ?_⟩
  · intro text
    rw [outcome_eq, encrypt_eq_sealed_iff sized derived written, ← openText_eq_ok_iff method]
    by_cases right : method.tag pair.integrity input = tag
    · simp [right]
    · simp [right, Ne.symm right]
  · intro wrong
    exact ⟨outcome_eq.trans (if_neg (Ne.symm wrong)), rfl⟩
  · intro right none_found
    exact ⟨(outcome_eq.trans (if_pos right.symm)).trans (openText_of_no_text none_found), rfl⟩
  · rw [← not_exists, Cbc.exists_text_iff]
    simp only [ne_eq, Classical.not_and_iff_not_or_not, Classical.not_not]

/-- An octet encrypted under an empty key is decrypted; no block at all is refused, even under the
tag that is right for it. -/
theorem decrypt_eq_ok_iff_encrypt_empty_key :
    ∃ header : JweHeader, header = ⟨"dir", "A128CBC-HS256", none, some [], none, "e30"⟩
      ∧ a128cbcHs256.outcome [] header "" (List.replicate 16 0)
          ⟨[228, 183, 193, 136, 212, 192, 146, 172, 177, 157, 218, 208, 199, 173, 22, 96],
            [180, 255, 215, 170, 53, 209, 26, 148, 84, 124, 242, 212, 54, 94, 41, 252]⟩ = .ok [65]
      ∧ ∃ tag, a128cbcHs256.outcome [] header "" (List.replicate 16 0) ⟨[], tag⟩
          = reject (.badPadding .a128cbcHs256) := by
  generalize hh : JweHeader.mk _ _ _ _ _ _ = header
  have plain : Ascii.Plain header.serialized := by
    subst hh
    have read : Base64Url.decode? "e30" = some [0x7b, 0x7d] := by decide +kernel
    exact Base64Url.plain_of_decode? read
  have fit : header.PartiesFit := by
    subst hh
    exact ⟨Derivation.fits_nil, Derivation.fits_nil⟩
  obtain ⟨pair, -, -, told⟩ :=
    decrypt_eq_ok_iff_encrypt a128cbcHs256 [] plain fit .empty List.length_replicate
  refine ⟨header, rfl, ?_, ?_⟩
  · refine ((told _).1 [65]).2 ?_
    subst hh
    decide +kernel
  · obtain ⟨-, input, written, -⟩ := told ⟨[], []⟩
    obtain ⟨-, input', written', -, refused, no_text⟩ :=
      told ⟨[], (Hmac.tag .sha256 pair.integrity input).take 16⟩
    obtain rfl : input' = input := by
      rw [written] at written'
      exact (Except.ok.inj written').symm
    exact ⟨_, (refused rfl (no_text.2 (.inl rfl))).1⟩

end CompositeMethod

end TokenCrypto
