import TokenCrypto.Proofs.Direct.Stages

/-!
# How long the parts of a token are

The parts that an encrypter makes have no encrypted key, and the three others (IV, ciphertext and
tag) are canonical texts of octets. How many octets there are is a matter of the method and of the
number of octets that are encrypted: AES-GCM keeps that number, while AES-CBC fills up to whole
blocks, by one more block where the octets fill theirs. An IV of any other length than that of the
method is told to be one.

* `EncryptionMethod.sizes`: the table of lengths.
* `Direct.enclose_sized`: the lengths of what is enclosed.
* `Direct.enclose_of_other_size`: an IV of another length.
* `Direct.encrypt_sizes`: the parts of a token.
-/

namespace TokenCrypto

/-! ## Sizes -/

/-- How many octets the parts of a token have. -/
structure Sizes where
  iv : Nat
  ciphertext : Nat
  tag : Nat
  deriving DecidableEq, Repr

/-- How many octets the parts have that a method makes of `n` octets. -/
def EncryptionMethod.sizes (n : Nat) : EncryptionMethod → Sizes
  | .gcm _ => ⟨12, n, 16⟩
  | .composite .a128cbcHs256 => ⟨16, 16 * (n / 16 + 1), 16⟩
  | .composite .a256cbcHs512 => ⟨16, 16 * (n / 16 + 1), 32⟩

theorem EncryptionMethod.sizes_composite (n : Nat) (m : CompositeMethod) :
    sizes n (.composite m) = ⟨CompositeMethod.ivSize, 16 * (n / 16 + 1), m.tagSize⟩ := by
  cases m with
  | a128cbcHs256 => rfl
  | a256cbcHs512 => rfl

/-- A text is the canonical one of octets: it stands for them, and is what they are written as. -/
structure Base64Url.Canonical (text : String) (bytes : Bytes) : Prop where
  decoded : decode? text = some bytes
  encoded : encode bytes = text

theorem Base64Url.canonical_encode (bytes : Bytes) : Canonical (encode bytes) bytes :=
  ⟨decode?_encode bytes, rfl⟩

namespace Direct

variable {d : Direct} {header : JweHeader} {method : EncryptionMethod} {text bytes : Bytes}
variable {iv : Material}

/-! ## What is enclosed -/

/-- An IV of another length is told to be one, before anything is encrypted. -/
theorem enclose_of_other_size (selected : d.selectMethod header = .ok method)
    (plain : Ascii.Plain header.serialized) {n : Nat} (counted : iv.size? = some n)
    (other : n ≠ (method.sizes bytes.length).iv) :
    ∃ why, d.enclose header method bytes iv = reject why ∧ why.report.category = .validation := by
  cases method with
  | gcm m =>
    obtain ⟨data, written⟩ := Aead.additionalData_of_plain plain .empty
    refine ⟨.ivLength Rejection.gcmName n Aead.ivSize, ?_, rfl⟩
    unfold enclose
    show (Aead.additionalData header.serialized "" >>= _) = _
    rw [written, ok_bind]
    exact Aead.encrypt_of_other_size (key_length_of_gcm selected) counted other bytes _
  | composite m =>
    rw [EncryptionMethod.sizes_composite] at other
    exact ⟨_, m.encrypt_of_other_size counted other d.master bytes header "", rfl⟩

/-- A ciphertext and a tag, and the IV they were made with, have the lengths told of them. -/
structure Sized (sizes : Sizes) (iv : Bytes) (result : Sealed) : Prop where
  iv : iv.length = sizes.iv
  ciphertext : result.ciphertext.length = sizes.ciphertext
  tag : result.tag.length = sizes.tag

theorem enclose_sized {result : Sealed} (enclosed : d.enclose header method bytes iv = .ok result)
    {ivBytes : Bytes} (octets : iv.bytes? = some ivBytes) :
    Sized (method.sizes bytes.length) ivBytes result := by
  cases method with
  | gcm m =>
    unfold enclose at enclosed
    obtain ⟨data, -, enclosed⟩ := bind_eq_ok_iff.1 enclosed
    obtain ⟨-, ivBytes', octets', full, -, rfl⟩ := Aead.encrypt_eq_ok_iff.1 enclosed
    obtain rfl : ivBytes = ivBytes' := Option.some.inj (octets.symm.trans octets')
    obtain ⟨ciphertext, tag⟩ := Aead.lengths_split_encrypt (Aes.schedule d.key.bytes) ivBytes data
      bytes
    exact ⟨full, ciphertext, tag⟩
  | composite m =>
    obtain ⟨ivBytes', pair, input, octets', full, -, -, rfl⟩ :=
      CompositeMethod.encrypt_eq_ok_iff.1 enclosed
    obtain rfl : ivBytes = ivBytes' := Option.some.inj (octets.symm.trans octets')
    rw [EncryptionMethod.sizes_composite]
    exact ⟨full, Cbc.length_encrypt _ _ _, m.length_tag _ _⟩

/-! ## What is encrypted -/

/-- The octets that are encrypted for a plaintext: the plaintext itself, or what the codec that the
header names (zip) makes of it. -/
inductive Packed (codecs : Codecs) (header : JweHeader) (text : Bytes) : Bytes → Prop where
  | asItIs : header.compression = none → Packed codecs header text text
  | compressed {name : String} {codec : Codec} {bytes : Bytes} :
    header.compression = some (.string name) → codecs.find? name = some codec →
    codec.compress text = .ok bytes → Packed codecs header text bytes

theorem packed_of_compress (h : d.compress header text = .ok bytes) :
    Packed d.codecs header text bytes := by
  obtain ⟨codec, found, h⟩ := bind_eq_ok_iff.1 h
  rcases codecFor_eq_ok_iff.1 found with ⟨unnamed, rfl⟩ | ⟨name, codec, named, known, -, rfl⟩
  · cases h
    exact .asItIs unnamed
  · replace h : (codec.compress text).mapError _ = .ok bytes := h
    cases made : codec.compress text with
    | ok packed =>
      rw [made] at h
      cases h
      exact .compressed named known made
    | error why =>
      rw [made] at h
      cases h

/-! ## The parts of a token -/

/-- The parts that a method makes of `n` octets: no encrypted key, the IV that was handed in, and a
ciphertext and a tag, all of them written canonically. -/
structure Shaped (method : EncryptionMethod) (n : Nat) (ivBytes : Bytes) (parts : Parts) :
    Prop where
  encryptedKey : parts.encryptedKey = some ""
  iv : ∃ text, parts.iv = some text ∧ Base64Url.Canonical text ivBytes
    ∧ ivBytes.length = (method.sizes n).iv
  ciphertext : ∃ text hidden, parts.ciphertext = some text ∧ Base64Url.Canonical text hidden
    ∧ hidden.length = (method.sizes n).ciphertext
  tag : ∃ text tagBytes, parts.tag = some text ∧ Base64Url.Canonical text tagBytes
    ∧ tagBytes.length = (method.sizes n).tag

theorem Sized.shaped {n : Nat} {ivBytes : Bytes} {result : Sealed}
    (sized : Sized (method.sizes n) ivBytes result) :
    Shaped method n ivBytes (.ofSealed ivBytes result) where
  encryptedKey := rfl
  iv := ⟨_, rfl, Base64Url.canonical_encode ivBytes, sized.iv⟩
  ciphertext := ⟨_, _, rfl, Base64Url.canonical_encode result.ciphertext, sized.ciphertext⟩
  tag := ⟨_, _, rfl, Base64Url.canonical_encode result.tag, sized.tag⟩

/-- The parts that come of any plaintext and any IV that was handed in. If there are parts, the
header names a method, and the parts have the sizes of that method for the octets that were
encrypted; the IV is the one that was handed in. If it has another length than the method asks for,
though the header is within ASCII, passes the checks and its codec does not fail, that is a matter
of validation. -/
theorem encrypt_sizes (d : Direct) (header : JweHeader) (text : Bytes) (iv : Material) :
    (∀ parts, d.encrypt header (.octets text) (.given iv) = .ok parts →
      ∃ method bytes ivBytes, header.method = .string method.name
        ∧ Packed d.codecs header text bytes ∧ iv.bytes? = some ivBytes
        ∧ Shaped method bytes.length ivBytes parts)
    ∧ ∀ (method : EncryptionMethod) (bytes : Bytes) (n : Nat), Ascii.Plain header.serialized →
      d.checkAlgorithm header = .ok () → d.selectMethod header = .ok method →
      d.compress header text = .ok bytes → iv.size? = some n →
      n ≠ (method.sizes bytes.length).iv →
      ∃ why, d.encrypt header (.octets text) (.given iv) = reject why
        ∧ why.report.category = .validation := by
  refine ⟨?_, ?_⟩
  · intro parts encrypted
    obtain ⟨-, method, bytes, iv', ivBytes, result, selected, compressed, handed, octets, enclosed,
      rfl⟩ := encrypt_eq_ok_iff.1 encrypted
    obtain rfl : iv = iv' := Except.ok.inj handed
    have sized := enclose_sized enclosed octets
    exact ⟨method, bytes, ivBytes, (selectMethod_eq_ok_iff.1 selected).1,
      packed_of_compress compressed, octets, sized.shaped⟩
  · intro method bytes n plain checked selected compressed counted other
    obtain ⟨why, refused, category⟩ := enclose_of_other_size selected plain counted other
    refine ⟨why, ?_, category⟩
    have handed : ivFrom (.given iv) method = .ok iv := rfl
    rw [encrypt, Material.fixedBytes_octets, ok_bind, checked, ok_bind, selected, ok_bind,
      compressed, ok_bind, handed, ok_bind, refused, reject_bind]

/-- Sixteen octets fill a block, so another one is added to them. An IV that is right for AES-GCM is
too short here. -/
theorem encrypt_sizes_whole_block :
    ∃ (d : Direct) (header : JweHeader) (parts : Parts) (ciphertext : String) (hidden : Bytes),
      header = ⟨"dir", "A128CBC-HS256", none, none, none, "e30"⟩
      ∧ d.encrypt header (.octets (List.replicate 16 65)) (.given (.octets (List.replicate 16 0)))
        = .ok parts
      ∧ parts.ciphertext = some ciphertext ∧ Base64Url.Canonical ciphertext hidden
      ∧ hidden.length = 32
      ∧ ∃ why, d.encrypt header (.octets (List.replicate 16 65))
          (.given (.octets (List.replicate 12 0))) = reject why
        ∧ why.report.category = .validation := by
  let d : Direct :=
    { key := ⟨List.replicate 32 0⟩, policy := .standard, codecs := .standard
      key_bits := ⟨.gcm .a256gcm, by decide, rfl⟩ }
  let header : JweHeader := ⟨"dir", "A128CBC-HS256", none, none, none, "e30"⟩
  have read : Base64Url.decode? "e30" = some [0x7b, 0x7d] := by decide +kernel
  have plain : Ascii.Plain header.serialized := Base64Url.plain_of_decode? read
  have checked : d.checkAlgorithm header = .ok () := rfl
  have selected : d.selectMethod header = .ok (.composite .a128cbcHs256) := rfl
  have compressed : d.compress header (List.replicate 16 65) = .ok (List.replicate 16 65) := rfl
  have fit : header.PartiesFit := ⟨Derivation.fits_nil, Derivation.fits_nil⟩
  have full : (List.replicate 16 (0 : UInt8)).length =
      (EncryptionMethod.composite .a128cbcHs256).ivSize := by decide
  obtain ⟨parts, encrypted⟩ := exists_encrypt checked selected compressed full plain fit
  obtain ⟨shapes, -⟩ := encrypt_sizes d header (List.replicate 16 65)
    (.octets (List.replicate 16 0))
  obtain ⟨method, bytes, ivBytes, named, packed, -, shaped⟩ := shapes parts encrypted
  obtain rfl : .composite .a128cbcHs256 = method :=
    Option.some.inj (EncryptionMethod.bind_ofName?_eq_some_iff.2 named)
  cases packed with
  | compressed zipped => cases zipped
  | asItIs =>
    obtain ⟨ciphertext, hidden, given, canonical, length_eq⟩ := shaped.ciphertext
    obtain ⟨-, refuses⟩ := encrypt_sizes d header (List.replicate 16 65)
      (.octets (List.replicate 12 0))
    exact ⟨d, header, parts, ciphertext, hidden, rfl, encrypted, given, canonical, length_eq,
      refuses _ _ 12 plain checked selected compressed rfl (by decide)⟩

end Direct

end TokenCrypto
