import TokenCrypto.ContentEncryption.Aead
import TokenCrypto.Proofs.Categories
import TokenCrypto.Proofs.Derivation
import TokenCrypto.Proofs.Mode

/-!
# Content encryption on octets

What the two ways of encrypting a content do to octets that pass their checks: a key of the right
size, an IV of the right length. The tag is looked at before anything else, and all of it depends on
the tag by one comparison.

* `Aead.encrypt_eq_ok_iff`, `Aead.decrypt_octets`: AES-GCM.
* `Aead.openText_eq_ok_iff`: the plaintext of a ciphertext with its tag, within the limit.
* `CompositeMethod.encrypt_eq_sealed_iff`, `CompositeMethod.decrypt_of_keys`: the composite methods.
-/

namespace TokenCrypto

/-! ## Initialization vectors -/

section

variable {iv : Material} {size : Nat} {name : String} {bytes : Bytes}

theorem Iv.length_of_check (checked : check iv size name = .ok ())
    (octets : iv.bytes? = some bytes) : bytes.length = size := by
  obtain ⟨n, counted, n_eq⟩ := check_eq_ok_iff.1 checked
  rw [Material.size?_of_bytes? octets] at counted
  obtain rfl := Option.some.inj counted
  omega

theorem Iv.check_of_length (octets : iv.bytes? = some bytes) (length_eq : bytes.length = size) :
    check iv size name = .ok () :=
  check_eq_ok_iff.2 ⟨_, Material.size?_of_bytes? octets, by rw [length_eq]⟩

theorem Iv.check_of_other_size {n : Nat} (counted : iv.size? = some n) (other : n ≠ size)
    (name : String) : check iv size name = reject (.ivLength name n size) := by
  have counts : iv.size = .ok n := by rw [Material.size, counted]
  rw [check, counts, ok_bind, if_neg (by omega)]

theorem Iv.told_check (iv : Bytes) (size : Int) (name : String) :
    Told [.validation] (check (.octets iv) size name) := by
  rw [check_octets]
  split
  · exact .ok _
  · exact .reject List.mem_cons_self

end

/-! ## AES-GCM -/

namespace Aead

theorem additionalData_of_plain {header encryptedKey : String} (hh : Ascii.Plain header)
    (hk : Ascii.Plain encryptedKey) : ∃ data, additionalData header encryptedKey = .ok data :=
  asciiBytes_of_plain ((hh.append .point).append hk)

theorem length_additionalData {header encryptedKey : String} {data : Bytes}
    (written : additionalData header encryptedKey = .ok data) :
    data.length = header.length + 1 + encryptedKey.length := by
  rw [length_of_asciiBytes written, String.length_append, String.length_append]
  rfl

theorem keyBytes_eq_ok_iff {key bytes : Bytes} :
    keyBytes (.octets key) = .ok bytes ↔ (key.length = 16 ∨ key.length = 32) ∧ key = bytes := by
  by_cases sized : key.length = 16 ∨ key.length = 32
  · simp [keyBytes, Material.bytes, Material.bytes?, sized]
  · simp [keyBytes, Material.bytes, Material.bytes?, sized]

/-! ### The limit of the cipher -/

section

variable {key iv data closed text : Bytes}

theorem openText_of_short (short : closed.length < Gcm.tagSize) :
    openText key iv data closed = reject .forgedGcmTag := if_pos short

/-- Within the limit a ciphertext is decrypted if the tag behind it is right. -/
theorem openText_of_within (within : Within (closed.length - Gcm.tagSize) data.length) :
    openText key iv data closed =
      match Gcm.decrypt? (Aes.schedule key) iv data closed with
      | some text => .ok text
      | none => reject .forgedGcmTag := by
  by_cases short : closed.length < Gcm.tagSize
  · rw [openText_of_short short, Gcm.decrypt?, if_neg (Nat.not_le.2 short)]
  · exact (if_neg short).trans (if_pos within)

theorem openText_of_beyond (enough : Gcm.tagSize ≤ closed.length)
    (beyond : ¬ Within (closed.length - Gcm.tagSize) data.length) :
    openText key iv data closed = fail .tooLongForGcm := by
  rw [openText, if_neg (Nat.not_lt.2 enough), if_neg beyond]

/-- What comes out is what was encrypted, and was within the limit. -/
theorem openText_eq_ok_iff : openText key iv data closed = .ok text ↔
    Within text.length data.length ∧ closed = Gcm.encrypt (Aes.schedule key) iv data text := by
  have kept (same : closed = Gcm.encrypt (Aes.schedule key) iv data text) :
      closed.length - Gcm.tagSize = text.length := by
    rw [same, Gcm.length_encrypt, Nat.add_sub_cancel]
  constructor
  · intro h
    unfold openText at h
    split at h
    · cases h
    · split at h
      · next within =>
        cases opened : Gcm.decrypt? (Aes.schedule key) iv data closed with
        | some text' =>
          rw [opened] at h
          obtain rfl := Except.ok.inj h
          have same := (Gcm.decrypt?_eq_some_iff _ _ _ _ _).1 opened
          exact ⟨kept same ▸ within, same⟩
        | none =>
          rw [opened] at h
          cases h
      · cases h
  · rintro ⟨within, same⟩
    rw [openText_of_within ((kept same).symm ▸ within), same, Gcm.decrypt?_encrypt]

end

/-! ### Encrypting and decrypting -/

/-- What comes of octets under a key and an IV of the right sizes. -/
theorem encrypt_octets {key text data bytes : Bytes} {iv : Material}
    (sized : key.length = 16 ∨ key.length = 32) (octets : iv.bytes? = some bytes)
    (full : bytes.length = ivSize) :
    encrypt (.octets key) (.octets text) (.octets data) iv =
      if Within text.length data.length then
        .ok (split (Gcm.encrypt (Aes.schedule key) bytes data text))
      else reject .tooLongForGcm := by
  unfold encrypt
  rw [keyBytes_eq_ok_iff.2 ⟨sized, rfl⟩, ok_bind]
  show (Iv.check iv ivSize Rejection.gcmName >>= _) = _
  rw [Iv.check_of_length octets full, ok_bind, Material.bytesFor_eq_ok_iff.2 octets, ok_bind]
  rfl

/-- Octets within the limit are encrypted under a key and an IV of the right sizes. -/
theorem encrypt_eq_ok_iff {key text data : Bytes} {iv : Material} {result : Sealed} :
    encrypt (.octets key) (.octets text) (.octets data) iv = .ok result ↔
      (key.length = 16 ∨ key.length = 32) ∧ ∃ bytes, iv.bytes? = some bytes
        ∧ bytes.length = ivSize ∧ Within text.length data.length
        ∧ result = split (Gcm.encrypt (Aes.schedule key) bytes data text) := by
  constructor
  · intro h
    have made := h
    obtain ⟨key', read_key, h⟩ := bind_eq_ok_iff.1 h
    obtain ⟨sized, rfl⟩ := keyBytes_eq_ok_iff.1 read_key
    obtain ⟨text', read_text, h⟩ := bind_eq_ok_iff.1 h
    obtain ⟨_, checked, h⟩ := bind_eq_ok_iff.1 h
    obtain ⟨bytes, read_iv, -⟩ := bind_eq_ok_iff.1 h
    have octets := Material.bytesFor_eq_ok_iff.1 read_iv
    have full := Iv.length_of_check checked octets
    rw [encrypt_octets sized octets full] at made
    split at made
    · next within =>
      exact ⟨sized, bytes, octets, full, within, (Except.ok.inj made).symm⟩
    · cases made
  · rintro ⟨sized, bytes, octets, full, within, rfl⟩
    rw [encrypt_octets sized octets full, if_pos within]

/-- Under a key and an IV of the right sizes it is the tag behind the ciphertext that decides. -/
theorem decrypt_octets {key iv : Bytes} (hk : key.length = 16 ∨ key.length = 32)
    (hi : iv.length = ivSize) (hidden data tag : Bytes) :
    decrypt (.octets key) (.octets hidden) (.octets data) (.octets tag) (.octets iv) =
      openText key iv data (hidden ++ tag) := by
  unfold decrypt
  rw [keyBytes_eq_ok_iff.2 ⟨hk, rfl⟩, ok_bind]
  show (Iv.check (.octets iv) ivSize Rejection.gcmName >>= _) = _
  have octets : (Material.octets iv).bytes? = some iv := rfl
  rw [Iv.check_of_length octets hi, ok_bind]
  rfl

theorem encrypt_of_other_size {key : Bytes} (sized : key.length = 16 ∨ key.length = 32)
    {iv : Material} {n : Nat} (counted : iv.size? = some n) (other : n ≠ ivSize) (text : Bytes)
    (data : Material) :
    encrypt (.octets key) (.octets text) data iv =
      reject (.ivLength Rejection.gcmName n ivSize) := by
  unfold encrypt
  rw [keyBytes_eq_ok_iff.2 ⟨sized, rfl⟩, ok_bind]
  show (Iv.check iv ivSize Rejection.gcmName >>= _) = _
  rw [Iv.check_of_other_size counted other, reject_bind]

/-- What is split off an encrypted text is a ciphertext of the text's length and a whole tag. -/
theorem lengths_split_encrypt (keys : Aes.KeySchedule) (iv data text : Bytes) :
    (split (Gcm.encrypt keys iv data text)).ciphertext.length = text.length
      ∧ (split (Gcm.encrypt keys iv data text)).tag.length = Gcm.tagSize := by
  have whole := Gcm.length_encrypt keys iv data text
  refine ⟨?_, length_tag_split (by omega)⟩
  rw [split, List.length_take]
  omega

end Aead

/-! ## The composite methods -/

namespace CompositeMethod

theorem macInput_of_plain {header encryptedKey iv ciphertext : String} (hh : Ascii.Plain header)
    (hk : Ascii.Plain encryptedKey) (hi : Ascii.Plain iv) (hc : Ascii.Plain ciphertext) :
    ∃ input, macInput header encryptedKey iv ciphertext = .ok input :=
  asciiBytes_of_plain
    ((((((hh.append .point).append hk).append .point).append hi).append .point).append hc)

variable {method : CompositeMethod} {secret : Bytes} {header : JweHeader} {encryptedKey : String}

/-- Octets are encrypted under an IV of the right size if there are keys and the texts that are
authenticated are within ASCII. -/
theorem encrypt_eq_ok_iff {text : Bytes} {iv : Material} {result : Sealed} :
    method.encrypt (.octets secret) (.octets text) iv header encryptedKey = .ok result ↔
      ∃ bytes pair input, iv.bytes? = some bytes ∧ bytes.length = ivSize
        ∧ method.keys (.octets secret) header = .ok pair
        ∧ macInput header.serialized encryptedKey (Base64Url.encode bytes)
            (Base64Url.encode (Cbc.encrypt (Aes.schedule pair.content) bytes text)) = .ok input
        ∧ result = ⟨Cbc.encrypt (Aes.schedule pair.content) bytes text,
            method.tag pair.integrity input⟩ := by
  constructor
  · intro h
    obtain ⟨text', read_text, h⟩ := bind_eq_ok_iff.1 h
    obtain rfl := Except.ok.inj read_text
    obtain ⟨_, checked, h⟩ := bind_eq_ok_iff.1 h
    obtain ⟨pair, derived, h⟩ := bind_eq_ok_iff.1 h
    obtain ⟨bytes, read_iv, h⟩ := bind_eq_ok_iff.1 h
    obtain ⟨input, written, h⟩ := bind_eq_ok_iff.1 h
    have octets := Material.bytesFor_eq_ok_iff.1 read_iv
    exact ⟨bytes, pair, input, octets, Iv.length_of_check checked octets, derived, written,
      (Except.ok.inj h).symm⟩
  · rintro ⟨bytes, pair, input, octets, length_eq, derived, written, rfl⟩
    unfold encrypt
    show (Iv.check iv ivSize method.name >>= _) = _
    rw [Iv.check_of_length octets length_eq, ok_bind, derived, ok_bind,
      Material.bytesFor_eq_ok_iff.2 octets, ok_bind]
    show (macInput _ _ _ _ >>= _) = _
    rw [written, ok_bind]
    rfl

theorem encrypt_of_other_size (method : CompositeMethod) {iv : Material} {n : Nat}
    (counted : iv.size? = some n) (other : n ≠ ivSize) (master : Material) (text : Bytes)
    (header : JweHeader) (encryptedKey : String) :
    method.encrypt master (.octets text) iv header encryptedKey =
      reject (.ivLength method.name n ivSize) := by
  unfold encrypt
  show (Iv.check iv ivSize method.name >>= _) = _
  rw [Iv.check_of_other_size counted other, reject_bind]

section

variable {iv hidden : Bytes} {pair : KeyPair}

/-- With the keys at hand, encrypting yields a ciphertext and a tag if each of them is the one that
is computed. -/
theorem encrypt_eq_sealed_iff (sized : iv.length = ivSize)
    (derived : method.keys (.octets secret) header = .ok pair) {input : Bytes}
    (written : macInput header.serialized encryptedKey (Base64Url.encode iv)
      (Base64Url.encode hidden) = .ok input) {text tag : Bytes} :
    method.encrypt (.octets secret) (.octets text) (.octets iv) header encryptedKey
        = .ok ⟨hidden, tag⟩ ↔
      hidden = Cbc.encrypt (Aes.schedule pair.content) iv text
        ∧ tag = method.tag pair.integrity input := by
  rw [encrypt_eq_ok_iff]
  constructor
  · rintro ⟨bytes, pair', input', octets, -, derived', written', same⟩
    obtain rfl : iv = bytes := Option.some.inj octets
    obtain rfl : pair = pair' := by
      rw [derived] at derived'
      exact Except.ok.inj derived'
    obtain ⟨hidden_eq, tag_eq⟩ := Sealed.mk.inj same
    rw [← hidden_eq, written] at written'
    obtain rfl := Except.ok.inj written'
    exact ⟨hidden_eq, tag_eq⟩
  · rintro ⟨rfl, rfl⟩
    exact ⟨iv, pair, input, rfl, sized, derived, written, rfl⟩

/-- With the keys at hand every text is encrypted. -/
theorem exists_encrypt (plain : Ascii.Plain header.serialized)
    (plain_key : Ascii.Plain encryptedKey) (sized : iv.length = ivSize)
    (derived : method.keys (.octets secret) header = .ok pair) (text : Bytes) : ∃ result,
      method.encrypt (.octets secret) (.octets text) (.octets iv) header encryptedKey
        = .ok result := by
  obtain ⟨input, written⟩ := macInput_of_plain plain plain_key (Base64Url.plain_encode iv)
    (Base64Url.plain_encode (Cbc.encrypt (Aes.schedule pair.content) iv text))
  exact ⟨_, (encrypt_eq_sealed_iff sized derived written).2 ⟨rfl, rfl⟩⟩

end

/-- The text of authentic octets, if they are whole blocks with a padding. -/
def openText (method : CompositeMethod) (pair : KeyPair) (iv hidden : Bytes) : Except Error Bytes :=
  match Cbc.decrypt? (Aes.schedule pair.content) iv hidden with
  | some text => .ok text
  | none => reject (.badPadding method)

theorem openText_encrypt (pair : KeyPair) (iv text : Bytes) :
    method.openText pair iv (Cbc.encrypt (Aes.schedule pair.content) iv text) = .ok text := by
  have back := (Cbc.decrypt?_eq_some_iff (Aes.schedule pair.content) iv _ text).2 rfl
  rw [openText, back]

section

variable {iv ciphertext : String} {ivBytes hidden : Bytes}

/-- Octets are decrypted if the tag handed in is the one that is computed. -/
theorem decrypt_of_keys (read_iv : wireBytes iv = .ok ivBytes) (sized : ivBytes.length = ivSize)
    (read_hidden : wireBytes ciphertext = .ok hidden) {pair : KeyPair} {input : Bytes}
    (derived : method.keys (.octets secret) header = .ok pair)
    (written : macInput header.serialized encryptedKey iv ciphertext = .ok input) (tag : Bytes) :
    method.decrypt (.octets secret) header encryptedKey iv ciphertext (.octets tag) =
      if method.tag pair.integrity input = tag then method.openText pair ivBytes hidden
      else reject (.forgedTag method) := by
  have octets : (Material.octets ivBytes).bytes? = some ivBytes := rfl
  unfold decrypt
  rw [read_iv, ok_bind, Iv.check_of_length octets sized, ok_bind, read_hidden,
    ok_bind, derived, ok_bind, written, ok_bind, Material.equals_octets, ok_bind]
  simp only [Bytes.equalThroughout_eq_true_iff]
  rfl

theorem decrypt_of_no_keys (read_iv : wireBytes iv = .ok ivBytes)
    (sized : ivBytes.length = ivSize) (read_hidden : wireBytes ciphertext = .ok hidden)
    {why : Fault} (derived : method.keys (.octets secret) header = fail why) (tag : Bytes) :
    method.decrypt (.octets secret) header encryptedKey iv ciphertext (.octets tag) =
      fail why := by
  have octets : (Material.octets ivBytes).bytes? = some ivBytes := rfl
  unfold decrypt
  rw [read_iv, ok_bind, Iv.check_of_length octets sized, ok_bind, read_hidden,
    ok_bind, derived, fail_bind]

end

end CompositeMethod

end TokenCrypto
