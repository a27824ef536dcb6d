import TokenCrypto.Proofs.Deflate.RoundTrip
import TokenCrypto.Proofs.Direct.Stages
import TokenCrypto.Proofs.Header.Canonical

/-!
# What is encrypted is decrypted

Whatever parts an encrypter gives, the decrypter of the same key and policy takes them for
authentic. Without compression (zip) the plaintext comes back; with it the plaintext comes back
within the bound of the policy, which the encrypter does not look at, and otherwise there is a
rejection on account of the compression.

* `Direct.round_trip`: the outcome of decrypting what was encrypted.
-/

namespace TokenCrypto

theorem Codecs.find?_standard (name : String) :
    standard.find? name = if name = "DEF" then some Codec.deflate else none := by
  by_cases h : name = "DEF"
  · subst h
    rfl
  · simp [find?, standard, h]

namespace Direct

variable {d : Direct} {header : JweHeader}

/-! ## Compression -/

theorem codecFor_of_none (h : header.compression = none) : d.codecFor header = .ok none := by
  rw [codecFor, h]

/-- Of the codecs that are there from the start only one is found. -/
theorem codecFor_standard (standard : d.codecs = Codecs.standard) {name : Json.Text}
    (named : header.compression = some name) {codec : Option (String × Codec)}
    (h : d.codecFor header = .ok codec) :
    name = .string "DEF" ∧ codec = some ("DEF", Codec.deflate) := by
  rcases codecFor_eq_ok_iff.1 h with ⟨unnamed, -⟩ | ⟨known, found, named', known_eq, -, rfl⟩
  · rw [unnamed] at named
    cases named
  · obtain rfl : name = .string known := Option.some.inj (named.symm.trans named')
    rw [standard, Codecs.find?_standard] at known_eq
    by_cases deflate : known = "DEF"
    · subst deflate
      obtain rfl := Option.some.inj known_eq
      exact ⟨rfl, rfl⟩
    · rw [if_neg deflate] at known_eq
      cases known_eq

theorem decompress_of_none (h : header.compression = none) (bytes : Bytes) :
    d.decompress header bytes = .ok bytes := by
  rw [decompress, codecFor_of_none h, ok_bind]
  rfl

theorem decompress_of_deflate (found : d.codecFor header = .ok (some ("DEF", Codec.deflate)))
    (bytes : Bytes) :
    d.decompress header bytes = (Deflate.decompress bytes d.policy.limit).mapError fun why =>
      .rejected (.notDecompressed "DEF" (.inflate why)) := by
  rw [decompress, found, ok_bind]
  simp only [Codec.deflate]
  cases Deflate.decompress bytes d.policy.limit with
  | error why => rfl
  | ok text => rfl

/-- A plaintext that was compressed comes back if the bound allows for it, and no other does. -/
theorem decompress_deflated (found : d.codecFor header = .ok (some ("DEF", Codec.deflate)))
    (text : Bytes) :
    if text.length ≤ d.policy.limit ∧ d.policy.limit ≤ 0x7ffffffffffffffe then
      d.decompress header (Deflate.compress text) = .ok text
    else ∃ why, d.decompress header (Deflate.compress text) = reject why
      ∧ why.report.category = .compression := by
  rw [decompress_of_deflate found,
    Deflate.decompress_compress text (Int.natCast_nonneg d.policy.limit)]
  have limit_eq : Deflate.sizeLimit = 0x8000000000000000 := rfl
  by_cases large : Deflate.sizeLimit ≤ (d.policy.limit : Int) + 1
  · rw [if_neg (by omega), if_pos large]
    exact ⟨.notDecompressed "DEF" _, rfl, rfl⟩
  · rw [if_neg large]
    by_cases short : text.length ≤ d.policy.limit
    · rw [if_pos ⟨short, by omega⟩, if_pos (by omega)]
      rfl
    · rw [if_neg (fun both => short both.1), if_neg (by omega)]
      exact ⟨.notDecompressed "DEF" _, rfl, rfl⟩

/-! ## Both ways -/

theorem policy_codecs_of_create {key : Key} {policy : Policy} {codecs : Codecs}
    (made : create key policy codecs = .ok d) : d.policy = policy ∧ d.codecs = codecs :=
  (create_eq_ok_iff.1 made).2

/-- Parts that were encrypted are authentic: what is left of decrypting is to decompress. -/
theorem decrypt_of_encrypt {text : Bytes} {source : IvSource} {parts : Parts}
    (h : d.encrypt header (.octets text) source = .ok parts) :
    ∃ bytes, d.compress header text = .ok bytes
      ∧ d.decrypt header parts = d.decompress header bytes := by
  obtain ⟨checked, method, bytes, iv, ivBytes, result, selected, compressed, -, octets, enclosed,
    rfl⟩ := encrypt_eq_ok_iff.1 h
  refine ⟨bytes, compressed, ?_⟩
  have given : checkParts (Parts.ofSealed ivBytes result) = .ok (Base64Url.encode ivBytes,
      Base64Url.encode result.ciphertext, Base64Url.encode result.tag) :=
    checkParts_eq_ok_iff.2 ⟨rfl, rfl, rfl, rfl⟩
  rw [decrypt_eq checked selected given, authenticate_enclose selected octets enclosed, ok_bind]

/-- Decrypting what was encrypted, with the header of the encrypter or with one read from its text:
without compression (zip) the plaintext comes back, with compression it does within the bound. -/
theorem round_trip {key : Key} {policy : Policy}
    (made : create key policy Codecs.standard = .ok d) {text : Bytes} {source : IvSource}
    {parts : Parts} (h : d.encrypt header (.octets text) source = .ok parts) :
    (header.compression = none → d.decrypt header parts = .ok text)
    ∧ (∀ name, header.compression = some name → name = .string "DEF"
        ∧ if text.length ≤ policy.limit ∧ policy.limit ≤ 0x7ffffffffffffffe then
            d.decrypt header parts = .ok text
          else ∃ why, d.decrypt header parts = reject why
            ∧ why.report.category = .compression)
    ∧ (header.Composed → ∃ received, JweHeader.parse header.serialized = .ok received
        ∧ d.decrypt received parts = d.decrypt header parts) := by
  obtain ⟨rfl, standard⟩ := policy_codecs_of_create made
  obtain ⟨bytes, compressed, outcome⟩ := decrypt_of_encrypt h
  rw [outcome]
  obtain ⟨codec, found, compressed⟩ := bind_eq_ok_iff.1 compressed
  refine ⟨?_, ?_, ?_⟩
  · intro none_named
    have no_codec := codecFor_of_none (d := d) none_named
    rw [found] at no_codec
    obtain rfl := Except.ok.inj no_codec
    obtain rfl := Except.ok.inj compressed
    rw [decompress, found, ok_bind]
    rfl
  · intro name named
    obtain ⟨def_named, rfl⟩ := codecFor_standard standard named found
    obtain rfl := Except.ok.inj compressed
    exact ⟨def_named, decompress_deflated found text⟩
  · intro composed
    exact ⟨header, JweHeader.parse_of_composed composed, outcome⟩

/-- A text of one octet, compressed, and decrypted with a header that was read. -/
theorem round_trip_deflated :
    ∃ d header parts received,
      create (.symmetric ⟨List.replicate 16 0⟩) .standard Codecs.standard = .ok d
      ∧ JweHeader.create (.text "dir") (.text "A128GCM") (some (.string "DEF")) none none
          = .ok header
      ∧ d.encrypt header (.octets [65]) (.given (.octets (List.replicate 12 0))) = .ok parts
      ∧ JweHeader.parse header.serialized = .ok received ∧ d.decrypt received parts = .ok [65] := by
  have made := create_symmetric ⟨List.replicate 16 0⟩ ⟨.gcm .a128gcm, by decide, rfl⟩ .standard
    Codecs.standard
  have composed := Sample.create_header
  generalize hd : Direct.mk _ _ _ _ = d at made
  have checked : d.checkAlgorithm Sample.header = .ok () := by
    subst hd
    rfl
  have selected : d.selectMethod Sample.header = .ok (.gcm .a128gcm) := by
    subst hd
    rfl
  have compressed : d.compress Sample.header [65] = .ok (Deflate.compress [65]) := by
    subst hd
    rfl
  have plain : Ascii.Plain Sample.header.serialized := by
    rw [JweHeader.serialized_create composed]
    exact Base64Url.plain_encode _
  have takes : (EncryptionMethod.gcm .a128gcm).Takes Sample.header
      (Deflate.compress [65]).length := by
    rw [Deflate.compress, Deflate.tokensOf_singleton]
    show Aead.Within _ _
    decide +kernel
  have sized : (List.replicate 12 (0 : UInt8)).length
      = (EncryptionMethod.gcm .a128gcm).ivSize := by decide
  obtain ⟨parts, encrypted⟩ := exists_encrypt checked selected compressed sized plain takes
  obtain ⟨-, deflated, same⟩ := round_trip made encrypted
  obtain ⟨received, read, outcome⟩ := same ⟨"dir", "A128GCM", some "DEF", none, none, composed⟩
  have within := (deflated _ rfl).2
  rw [if_pos (by decide)] at within
  rw [← outcome] at within
  exact ⟨d, Sample.header, parts, received, made, composed, encrypted, read, within⟩

end Direct

end TokenCrypto
