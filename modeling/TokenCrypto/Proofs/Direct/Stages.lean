import TokenCrypto.Direct
import TokenCrypto.Proofs.ContentEncryption

/-!
# The stages of direct encryption

Decrypting goes through its stages in a fixed order, and a token that fails one is told so by that
stage. Here the stages are taken apart: what the checks let through, what is done with octets that
were let through, and what an encrypter has done that gives parts.

* `Direct.selectMethod_eq_ok_iff`: the method that is selected.
* `Direct.codecFor_eq_ok_iff`: the codec that is found.
* `Direct.decrypt_eq_ok_iff`: what has to succeed for a token to be decrypted.
* `Direct.decompress_eq_escaped_iff`: the exceptions of codecs that escape.
* `Direct.authenticate_gcm`, `Direct.authenticate_composite`: authenticating, for either sort of
  method.
* `Direct.authenticate_enclose`: what was enclosed is authentic, and comes out as it went in.
* `Direct.encrypt_eq_ok_iff`: what has to succeed for a text to be encrypted.
-/

namespace TokenCrypto

/-! ## Checks -/

theorem EncryptionMethod.ivSize_gcm (m : GcmMethod) : ivSize (.gcm m) = Aead.ivSize := by
  simp [ivSize, ivBits, Aead.ivSize]

theorem EncryptionMethod.ivSize_composite (m : CompositeMethod) :
    ivSize (.composite m) = CompositeMethod.ivSize := by
  simp [ivSize, ivBits, CompositeMethod.ivSize]

/-- What a method can take of a header and of a plaintext or ciphertext of so many octets. The limit
of AES-GCM is on that and on the AAD, the header with a point behind it; a composite method derives
its keys from information about the parties (epu and epv) for which there has to be room. -/
def EncryptionMethod.Takes (header : JweHeader) (size : Nat) : EncryptionMethod → Prop
  | gcm _ => Aead.Within size (header.serialized.length + 1)
  | composite _ => header.PartiesFit

/-- The texts by which a method is found: its name alone. -/
theorem EncryptionMethod.bind_ofName?_eq_some_iff {text : Json.Text} {method : EncryptionMethod} :
    text.string?.bind ofName? = some method ↔ text = .string method.name :=
  Json.Text.bind_string?_eq_some_iff ofName?_name name_of_ofName?

namespace Direct

/-- A secret of a size that some method uses can be shared. -/
theorem create_symmetric (secret : Secret)
    (sized : ∃ method ∈ EncryptionMethod.all, method.keyBits = secret.bitLength) (policy : Policy)
    (codecs : Codecs) :
    create (.symmetric secret) policy codecs =
      .ok { key := secret, policy, codecs, key_bits := sized } := dif_pos sized

theorem create_symmetric_of_other_size (secret : Secret)
    (h : ¬ ∃ method ∈ EncryptionMethod.all, method.keyBits = secret.bitLength) (policy : Policy)
    (codecs : Codecs) :
    create (.symmetric secret) policy codecs = reject (.sharedKeyLength secret.bitLength) :=
  dif_neg h

/-- What is made of a key, a policy and codecs is those three, and the key is a secret. -/
theorem create_eq_ok_iff {key : Key} {policy : Policy} {codecs : Codecs} {d : Direct} :
    create key policy codecs = .ok d ↔
      key = .symmetric d.key ∧ d.policy = policy ∧ d.codecs = codecs := by
  constructor
  · intro made
    unfold create at made
    split at made
    · cases made
    · next secret shared =>
      split at made
      · obtain rfl := Except.ok.inj made
        exact ⟨Key.secret?_eq_some_iff.1 shared, rfl, rfl⟩
      · cases made
  · rintro ⟨rfl, rfl, rfl⟩
    exact create_symmetric d.key d.key_bits d.policy d.codecs

theorem checkParts_eq_ok_iff {parts : Parts} {iv ciphertext tag : String} :
    checkParts parts = .ok (iv, ciphertext, tag) ↔
      parts.encryptedKeyText = "" ∧ parts.iv = some iv ∧ parts.ciphertext = some ciphertext
        ∧ parts.tag = some tag := by
  unfold checkParts
  by_cases no_key : parts.encryptedKeyText = ""
  · rw [if_neg (not_not_intro no_key)]
    cases hi : parts.iv <;> cases ht : parts.tag <;> cases hc : parts.ciphertext <;>
      simp [no_key, and_comm]
  · simp [no_key]

variable {d : Direct} {header : JweHeader}

theorem checkAlgorithm_eq_ok_iff : d.checkAlgorithm header = .ok () ↔
    ∃ name ∈ d.policy.algorithmNames, header.algorithm = .string name := by
  unfold checkAlgorithm
  split
  · next accepted =>
    obtain ⟨name, known, same⟩ := List.mem_map.1 accepted
    exact ⟨fun _ => ⟨name, known, same.symm⟩, fun _ => rfl⟩
  · next refused =>
    refine ⟨nofun, ?_⟩
    rintro ⟨name, known, same⟩
    exact absurd (List.mem_map.2 ⟨name, known, same.symm⟩) refused

/-- A method is selected if the header names it, the policy accepts it and the key is of its size.
-/
theorem selectMethod_eq_ok_iff {method : EncryptionMethod} :
    d.selectMethod header = .ok method ↔
      header.method = .string method.name ∧ method.name ∈ d.policy.methodNames
        ∧ method.keyBits = d.key.bitLength := by
  rw [← EncryptionMethod.bind_ofName?_eq_some_iff]
  unfold selectMethod
  split
  · next unknown =>
    rw [unknown]
    exact ⟨nofun, fun found => nomatch found.1⟩
  · next found known =>
    rw [known, Option.some.injEq]
    constructor
    · intro selected
      split at selected
      · cases selected
      · next accepted =>
        split at selected
        · cases selected
        · next sized =>
          obtain rfl := Except.ok.inj selected
          exact ⟨rfl, Decidable.not_not.1 accepted, Decidable.not_not.1 sized⟩
    · rintro ⟨rfl, accepted, sized⟩
      rw [if_neg (not_not_intro accepted), if_neg (not_not_intro sized)]

/-- The key has the size of a method that was selected. -/
theorem keyBits_of_selectMethod {method : EncryptionMethod}
    (h : d.selectMethod header = .ok method) : method.keyBits = 8 * d.key.bytes.length :=
  (selectMethod_eq_ok_iff.1 h).2.2

theorem key_length_of_gcm {m : GcmMethod} (h : d.selectMethod header = .ok (.gcm m)) :
    d.key.bytes.length = 16 ∨ d.key.bytes.length = 32 := by
  have bits := keyBits_of_selectMethod h
  cases m with
  | a128gcm =>
    have : 128 = 8 * d.key.bytes.length := bits
    omega
  | a256gcm =>
    have : 256 = 8 * d.key.bytes.length := bits
    omega

/-- There is no codec if no zip is given. Otherwise it is the codec of that name, which the policy
accepts. -/
theorem codecFor_eq_ok_iff {found : Option (String × Codec)} :
    d.codecFor header = .ok found ↔
      (header.compression = none ∧ found = none)
        ∨ ∃ name codec, header.compression = some (.string name)
          ∧ d.codecs.find? name = some codec ∧ name ∈ d.policy.compressionNames
          ∧ found = some (name, codec) := by
  constructor
  · intro h
    unfold codecFor at h
    split at h
    · next unnamed => exact .inl ⟨unnamed, (Except.ok.inj h).symm⟩
    · cases h
    · next name named =>
      split at h
      · cases h
      · next codec known =>
        split at h
        · next accepted =>
          exact .inr ⟨name, codec, named, known, accepted, (Except.ok.inj h).symm⟩
        · cases h
  · rintro (⟨unnamed, rfl⟩ | ⟨name, codec, named, known, accepted, rfl⟩)
    · rw [codecFor, unnamed]
    · simp only [codecFor, named, known, if_pos accepted]

/-! ## What the checks refuse -/

theorem told_checkParts (parts : Parts) : Told [.validation] (checkParts parts) := by
  unfold checkParts
  split
  · exact .reject List.mem_cons_self
  · split
    · exact .reject List.mem_cons_self
    · exact .reject List.mem_cons_self
    · exact .reject List.mem_cons_self
    · exact .ok _

theorem told_checkAlgorithm : Told [.unsupportedAlgorithm] (d.checkAlgorithm header) := by
  unfold checkAlgorithm
  split
  · exact .ok _
  · exact .reject List.mem_cons_self

theorem told_selectMethod : Told [.unsupportedAlgorithm, .keyLength] (d.selectMethod header) := by
  unfold selectMethod
  split
  · exact .reject List.mem_cons_self
  · split
    · exact .reject List.mem_cons_self
    · split
      · exact .reject (List.mem_cons_of_mem _ List.mem_cons_self)
      · exact .ok _

theorem told_codecFor : Told [.compression] (d.codecFor header) := by
  unfold codecFor
  split
  · exact .ok _
  · exact .reject List.mem_cons_self
  · split
    · exact .reject List.mem_cons_self
    · split
      · exact .ok _
      · exact .reject List.mem_cons_self

/-! ## What codecs raise -/

/-- Run on the octets, the codec that the header names raises an exception that is no failure. -/
def Escapes (d : Direct) (header : JweHeader) (bytes : Bytes) (why : Escape) : Prop :=
  ∃ name codec, d.codecFor header = .ok (some (name, codec))
    ∧ codec.decompress bytes d.policy.limit = .error (.escape why)

/-- Whatever a codec fails with, it is told as a matter of compression. -/
theorem told_decompress {bytes : Bytes} (none_escapes : ∀ why, ¬ d.Escapes header bytes why) :
    Told [.compression] (d.decompress header bytes) := by
  unfold decompress
  refine told_codecFor.bind ?_
  rintro (_ | ⟨name, codec⟩) found
  · exact .ok bytes
  · show Told _ ((codec.decompress bytes d.policy.limit).mapError _)
    cases run : codec.decompress bytes d.policy.limit with
    | ok text => exact .ok text
    | error raised =>
      cases raised with
      | failure why => exact .reject List.mem_cons_self
      | escape why => exact absurd ⟨name, codec, found, run⟩ (none_escapes why)

/-- An exception that escapes is the codec's own. -/
theorem decompress_eq_escaped_iff {bytes : Bytes} {why : Escape} :
    d.decompress header bytes = .error (.escaped why) ↔ d.Escapes header bytes why := by
  constructor
  · intro h
    unfold decompress at h
    cases found : d.codecFor header with
    | error e =>
      -- Looking for the codec raises nothing of the kind.
      have told : Told [.compression] (d.codecFor header) := told_codecFor
      rw [found] at told h
      cases told
      cases h
    | ok codec =>
      rw [found, ok_bind] at h
      cases codec with
      | none => cases h
      | some named =>
        obtain ⟨name, codec⟩ := named
        cases run : codec.decompress bytes d.policy.limit with
        | ok text =>
          simp only [run] at h
          cases h
        | error raised =>
          simp only [run] at h
          cases raised with
          | failure why => cases h
          | escape why =>
            cases h
            exact ⟨name, codec, found, run⟩
  · rintro ⟨name, codec, found, run⟩
    rw [decompress, found, ok_bind]
    simp only [run]
    rfl

/-! ## Decrypting -/

/-- Behind the checks, decrypting is authenticating and then decompressing. -/
theorem decrypt_eq {method : EncryptionMethod} (checked : d.checkAlgorithm header = .ok ())
    (selected : d.selectMethod header = .ok method) {parts : Parts} {iv ciphertext tag : String}
    (given : checkParts parts = .ok (iv, ciphertext, tag)) :
    d.decrypt header parts =
      (d.authenticate header method "" iv ciphertext tag >>= d.decompress header) := by
  have no_key := (checkParts_eq_ok_iff.1 given).1
  unfold decrypt
  rw [given, ok_bind]
  show (d.checkAlgorithm header >>= _) = _
  rw [checked, ok_bind, selected, ok_bind, no_key]

/-- What has to succeed for a token to be decrypted. -/
theorem decrypt_eq_ok_iff {parts : Parts} {text : Bytes} :
    d.decrypt header parts = .ok text ↔
      ∃ iv ciphertext tag method bytes, checkParts parts = .ok (iv, ciphertext, tag)
        ∧ d.checkAlgorithm header = .ok () ∧ d.selectMethod header = .ok method
        ∧ d.authenticate header method "" iv ciphertext tag = .ok bytes
        ∧ d.decompress header bytes = .ok text := by
  constructor
  · intro h
    obtain ⟨⟨iv, ciphertext, tag⟩, given, h⟩ := bind_eq_ok_iff.1 h
    obtain ⟨_, checked, h⟩ := bind_eq_ok_iff.1 h
    obtain ⟨method, selected, h⟩ := bind_eq_ok_iff.1 h
    rw [(checkParts_eq_ok_iff.1 given).1] at h
    obtain ⟨bytes, opened, h⟩ := bind_eq_ok_iff.1 h
    exact ⟨iv, ciphertext, tag, method, bytes, given, checked, selected, opened, h⟩
  · rintro ⟨iv, ciphertext, tag, method, bytes, given, checked, selected, opened, text_eq⟩
    rw [decrypt_eq checked selected given, opened, ok_bind, text_eq]

section

variable {iv ciphertext tag : String} {ivBytes hidden tagBytes : Bytes}

/-- Authenticating by an AES-GCM method: the ciphertext is decrypted with the tag behind it. -/
theorem authenticate_gcm {m : GcmMethod} (selected : d.selectMethod header = .ok (.gcm m))
    {encryptedKey : String} {data : Bytes}
    (written : Aead.additionalData header.serialized encryptedKey = .ok data)
    (read_iv : wireBytes iv = .ok ivBytes) (sized : ivBytes.length = Aead.ivSize)
    (read_hidden : wireBytes ciphertext = .ok hidden) (read_tag : wireBytes tag = .ok tagBytes) :
    d.authenticate header (.gcm m) encryptedKey iv ciphertext tag =
      Aead.openText d.key.bytes ivBytes data (hidden ++ tagBytes) := by
  unfold authenticate
  rw [read_tag, ok_bind]
  show (Aead.additionalData header.serialized encryptedKey >>= _) = _
  rw [written, ok_bind, read_hidden, ok_bind, read_iv, ok_bind]
  exact Aead.decrypt_octets (key_length_of_gcm selected) sized hidden data tagBytes

theorem authenticate_composite (m : CompositeMethod) {encryptedKey : String}
    (read_tag : wireBytes tag = .ok tagBytes) :
    d.authenticate header (.composite m) encryptedKey iv ciphertext tag =
      m.decrypt d.master header encryptedKey iv ciphertext (.octets tagBytes) := by
  unfold authenticate
  rw [read_tag, ok_bind]

end

/-! ## Encrypting -/

/-- What has to succeed for a text to be encrypted. -/
theorem encrypt_eq_ok_iff {text : Bytes} {source : IvSource} {parts : Parts} :
    d.encrypt header (.octets text) source = .ok parts ↔
      d.checkAlgorithm header = .ok () ∧ ∃ method bytes iv ivBytes result,
        d.selectMethod header = .ok method ∧ d.compress header text = .ok bytes
        ∧ ivFrom source method = .ok iv ∧ iv.bytes? = some ivBytes
        ∧ d.enclose header method bytes iv = .ok result
        ∧ parts = Parts.ofSealed ivBytes result := by
  unfold encrypt
  rw [Material.fixedBytes_octets, ok_bind]
  constructor
  · intro h
    obtain ⟨_, checked, h⟩ := bind_eq_ok_iff.1 h
    obtain ⟨method, selected, h⟩ := bind_eq_ok_iff.1 h
    obtain ⟨bytes, compressed, h⟩ := bind_eq_ok_iff.1 h
    obtain ⟨iv, drawn, h⟩ := bind_eq_ok_iff.1 h
    obtain ⟨result, enclosed, h⟩ := bind_eq_ok_iff.1 h
    obtain ⟨ivBytes, octets, h⟩ := bind_eq_ok_iff.1 h
    exact ⟨checked, method, bytes, iv, ivBytes, result, selected, compressed, drawn,
      Material.bytes_eq_ok_iff.1 octets, enclosed, (Except.ok.inj h).symm⟩
  · rintro ⟨checked, method, bytes, iv, ivBytes, result, selected, compressed, drawn, octets,
      enclosed, rfl⟩
    rw [checked, ok_bind, selected, ok_bind, compressed, ok_bind, drawn, ok_bind, enclosed, ok_bind,
      Material.bytes_eq_ok_iff.2 octets, ok_bind, pure_eq_ok]

/-- A plaintext is encrypted if it passes the checks and is compressed, the IV is of the right size,
and the header can be authenticated and takes no more room than there is. -/
theorem exists_encrypt {method : EncryptionMethod} (checked : d.checkAlgorithm header = .ok ())
    (selected : d.selectMethod header = .ok method) {text bytes : Bytes}
    (compressed : d.compress header text = .ok bytes) {iv : Bytes}
    (sized : iv.length = method.ivSize) (plain : Ascii.Plain header.serialized)
    (takes : method.Takes header bytes.length) :
    ∃ parts, d.encrypt header (.octets text) (.given (.octets iv)) = .ok parts := by
  have octets : (Material.octets iv).bytes? = some iv := rfl
  have enclosed : ∃ result, d.enclose header method bytes (.octets iv) = .ok result := by
    cases method with
    | gcm m =>
      rw [EncryptionMethod.ivSize_gcm] at sized
      obtain ⟨data, written⟩ := Aead.additionalData_of_plain plain .empty
      refine ⟨Aead.split (Gcm.encrypt (Aes.schedule d.key.bytes) iv data bytes), ?_⟩
      unfold enclose
      refine bind_eq_ok_iff.2 ⟨data, written, ?_⟩
      exact Aead.encrypt_eq_ok_iff.2 ⟨key_length_of_gcm selected, iv, octets, sized,
        Aead.length_additionalData written ▸ takes, rfl⟩
    | composite m =>
      rw [EncryptionMethod.ivSize_composite] at sized
      obtain ⟨pair, derived⟩ := m.keys_of_fit d.key.bytes takes
      exact CompositeMethod.exists_encrypt plain .empty sized derived bytes
  obtain ⟨result, enclosed⟩ := enclosed
  exact ⟨_, encrypt_eq_ok_iff.2 ⟨checked, method, bytes, .octets iv, iv, result, selected,
    compressed, rfl, octets, enclosed, rfl⟩⟩

/-- What was enclosed is authentic, and comes out as it went in. -/
theorem authenticate_enclose {method : EncryptionMethod}
    (selected : d.selectMethod header = .ok method) {bytes ivBytes : Bytes} {iv : Material}
    {result : Sealed} (octets : iv.bytes? = some ivBytes)
    (enclosed : d.enclose header method bytes iv = .ok result) :
    d.authenticate header method "" (Base64Url.encode ivBytes)
      (Base64Url.encode result.ciphertext) (Base64Url.encode result.tag) = .ok bytes := by
  -- Ciphertext and tag are written and read back, and the data beside them are the same.
  cases method with
  | gcm m =>
    unfold enclose at enclosed
    obtain ⟨data, written, enclosed⟩ := bind_eq_ok_iff.1 enclosed
    obtain ⟨-, ivBytes', octets', sized, within, rfl⟩ := Aead.encrypt_eq_ok_iff.1 enclosed
    obtain rfl : ivBytes' = ivBytes := by
      rw [octets] at octets'
      exact (Option.some.inj octets').symm
    rw [authenticate_gcm selected written (wireBytes_encode _) sized (wireBytes_encode _)
      (wireBytes_encode _), Aead.split_append, Aead.openText_eq_ok_iff]
    exact ⟨within, rfl⟩
  | composite m =>
    obtain ⟨ivBytes', pair, input, octets', sized, derived, written, rfl⟩ :=
      CompositeMethod.encrypt_eq_ok_iff.1 enclosed
    obtain rfl : ivBytes' = ivBytes := by
      rw [octets] at octets'
      exact (Option.some.inj octets').symm
    rw [authenticate_composite m (wireBytes_encode _), master,
      CompositeMethod.decrypt_of_keys (wireBytes_encode _) sized (wireBytes_encode _) derived
        written, if_pos rfl, CompositeMethod.openText_encrypt]

end Direct

/-! ## A token of one octet -/

namespace Direct.Sample

/-- A key of sixteen zeros. -/
def secret : Secret := ⟨List.replicate 16 0⟩

/-- That key, with a policy and codecs. -/
def direct (policy : Policy) (codecs : Codecs) : Direct where
  key := secret
  policy
  codecs
  key_bits := ⟨.gcm .a128gcm, by decide, rfl⟩

theorem create_direct (policy : Policy) (codecs : Codecs) :
    create (.symmetric secret) policy codecs = .ok (direct policy codecs) :=
  create_symmetric secret _ policy codecs

/-- The header under which an octet was compressed and encrypted with the key. -/
def header : JweHeader where
  algorithm := "dir"
  method := "A128GCM"
  compression := some (.string "DEF")
  partyU := none
  partyV := none
  serialized := "eyJhbGciOiJkaXIiLCJlbmMiOiJBMTI4R0NNIiwiemlwIjoiREVGIn0"

theorem create_header :
    JweHeader.create (.text "dir") (.text "A128GCM") (some (.string "DEF")) none none
      = .ok header := by decide +kernel

/-- What came of it. -/
def parts : Parts where
  iv := some "AAAAAAAAAAAAAAAA"
  ciphertext := some "cIza"
  tag := some "Xj9yyJjbWhZCbw6uaKn3WQ"

/-- The key opens the parts under every policy that accepts the method; what comes out is still
compressed. -/
theorem decrypt_direct {policy : Policy} (accepted : .gcm .a128gcm ∈ policy.methods)
    (codecs : Codecs) :
    (direct policy codecs).decrypt header parts =
      (direct policy codecs).decompress header [0x73, 0x04, 0x00] := by
  have checked : (direct policy codecs).checkAlgorithm header = .ok () :=
    checkAlgorithm_eq_ok_iff.2 ⟨_, (policy.mem_algorithmNames_iff _).2 rfl, rfl⟩
  have selected : (direct policy codecs).selectMethod header = .ok (.gcm .a128gcm) :=
    selectMethod_eq_ok_iff.2 ⟨rfl, (policy.mem_methodNames_iff _).2 accepted, rfl⟩
  have given : checkParts parts = .ok ("AAAAAAAAAAAAAAAA", "cIza", "Xj9yyJjbWhZCbw6uaKn3WQ") := rfl
  have opened : (direct policy codecs).authenticate header (.gcm .a128gcm) "" "AAAAAAAAAAAAAAAA"
      "cIza" "Xj9yyJjbWhZCbw6uaKn3WQ" = .ok [0x73, 0x04, 0x00] := by
    -- authenticating looks at the key alone
    show (direct .standard []).authenticate header (.gcm .a128gcm) "" _ _ _ = _
    decide +kernel
  rw [decrypt_eq checked selected given, opened, ok_bind]

/-- A key of thirty-two zeros. -/
def wide : Direct where
  key := ⟨List.replicate 32 0⟩
  policy := .standard
  codecs := .standard
  key_bits := ⟨.composite .a128cbcHs256, by decide, rfl⟩

/-! What some texts of tokens stand for. -/

theorem plain_empty_object : Ascii.Plain "e30" := by
  have read : Base64Url.decode? "e30" = some [0x7b, 0x7d] := by decide +kernel
  exact Base64Url.plain_of_decode? read

theorem read_octet : Base64Url.decode? "AA" = some [0] := by decide +kernel

theorem read_twelve : Base64Url.decode? "AAAAAAAAAAAAAAAA" = some (List.replicate 12 0) := by
  decide +kernel

theorem read_sixteen :
    Base64Url.decode? "AAAAAAAAAAAAAAAAAAAAAA" = some (List.replicate 16 0) := by decide +kernel

end Direct.Sample

end TokenCrypto
