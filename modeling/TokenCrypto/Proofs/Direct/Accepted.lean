import TokenCrypto.Proofs.Direct.Stages

/-!
# Tokens whose tag was found right

From the outcome of decrypting one can tell whether the tag was found right: it was if there is a
plaintext, a rejection on account of the padding or of the compression, or an exception that escaped
from a codec. The errors of all stages before the comparison of tags, and the one of the comparison
itself, are of other sorts.

* `Direct.TagAccepted`: the outcomes that show that the tag was found right.
* `Direct.Early.of_bind`: a stage that shows nothing about the tag is passed if it was found right.
* `Direct.octets_of_gcm_tagAccepted`, `Direct.octets_of_composite_tagAccepted`: what is known of
  ciphertext and tag then.
-/

namespace TokenCrypto

/-- What is told of a wrong tag. -/
def EncryptionMethod.forgery : EncryptionMethod → Rejection
  | gcm _ => .forgedGcmTag
  | composite method => .forgedTag method

theorem EncryptionMethod.category_forgery (method : EncryptionMethod) :
    method.forgery.report.category = .integrity := by
  cases method <;> rfl

namespace Direct

/-! ## Accepted tags -/

/-- An outcome that shows that the tag was found right: a plaintext, a rejection on account of the
padding or of the compression of what is authentic, or an exception that escaped from a codec. -/
def TagAccepted : Except Error Bytes → Prop
  | .ok _ => True
  | .error (.rejected why) =>
    why.report.category = .decryption ∨ why.report.category = .compression
  | .error (.fault _) => False
  | .error (.escaped _) => True

theorem tagAccepted_ok (bytes : Bytes) : TagAccepted (.ok bytes) := trivial

theorem tagAccepted_escaped (why : Escape) : TagAccepted (.error (.escaped why)) := trivial

theorem not_tagAccepted_fail (why : Fault) : ¬ TagAccepted (fail why) := by
  intro h
  exact h

theorem tagAccepted_reject_iff {why : Rejection} : TagAccepted (reject why) ↔
    why.report.category = .decryption ∨ why.report.category = .compression := Iff.rfl

theorem not_tagAccepted_forgery (method : EncryptionMethod) :
    ¬ TagAccepted (reject method.forgery) := by
  rw [tagAccepted_reject_iff, method.category_forgery]
  decide

variable {d : Direct} {header : JweHeader}

theorem tagAccepted_of_told {outcome : Except Error Bytes}
    (told : Told [.decryption, .compression] outcome) : TagAccepted outcome := by
  cases told with
  | ok text => exact tagAccepted_ok text
  | rejected known =>
    rcases List.mem_cons.1 known with opened | inflated
    · exact Or.inl opened
    · exact Or.inr (List.mem_singleton.1 inflated)

/-- Whatever a codec does, it is run only behind a right tag. -/
theorem tagAccepted_decompress (bytes : Bytes) : TagAccepted (d.decompress header bytes) := by
  by_cases escapes : ∃ why, d.Escapes header bytes why
  · obtain ⟨why, escapes⟩ := escapes
    rw [decompress_eq_escaped_iff.2 escapes]
    exact tagAccepted_escaped why
  · have told := told_decompress fun why h => escapes ⟨why, h⟩
    exact tagAccepted_of_told (told.mono (by decide))

theorem tagAccepted_bind_decompress_iff {opened : Except Error Bytes} :
    TagAccepted (opened >>= d.decompress header) ↔ TagAccepted opened := by
  cases opened with
  | ok bytes =>
    rw [ok_bind]
    exact ⟨fun _ => tagAccepted_ok bytes, fun _ => tagAccepted_decompress bytes⟩
  | error e => exact Iff.rfl

/-! ## What an accepted tag shows -/

/-- A step whose errors show nothing about the tag. -/
def Early {α : Type} (step : Except Error α) : Prop :=
  ∀ e, step = .error e → ¬ TagAccepted (.error e)

section

variable {α : Type}

theorem Early.fail (why : Fault) : Early (fail why : Except Error α) := by
  intro e he
  obtain rfl := Except.error.inj he
  exact not_tagAccepted_fail why

theorem Early.ok (a : α) : Early (.ok a : Except Error α) := by
  intro e he
  cases he

theorem Early.reject {why : Rejection} (h : why.report.category ≠ .decryption)
    (h' : why.report.category ≠ .compression) : Early (reject why : Except Error α) := by
  intro e he
  obtain rfl := Except.error.inj he
  rintro (shown | shown)
  · exact h shown
  · exact h' shown

/-- A step shows nothing about the tag if what it may refuse is of other sorts. -/
theorem Early.of_told {step : Except Error α} {categories : List Category}
    (told : Told categories step) (opened : .decryption ∉ categories)
    (inflated : .compression ∉ categories) : Early step := by
  cases told with
  | ok a => exact .ok a
  | rejected known =>
    exact .reject (fun same => opened (same ▸ known)) fun same => inflated (same ▸ known)

theorem Early.of_bind {step : Except Error α} (early : Early step)
    {next : α → Except Error Bytes} (h : TagAccepted (step >>= next)) :
    ∃ a, step = .ok a ∧ TagAccepted (next a) := by
  cases step with
  | ok a => exact ⟨a, rfl, by rwa [ok_bind] at h⟩
  | error e => exact absurd h (early e rfl)

end

theorem early_wireBytes (text : String) : Early (wireBytes text) :=
  .of_told (told_wireBytes text) (by decide) (by decide)

theorem early_asciiBytes (text : String) : Early (asciiBytes text) := by
  unfold asciiBytes
  cases Ascii.encode text with
  | ok bytes => exact .ok bytes
  | error run => exact .fail _

theorem early_check (iv : Bytes) (size : Int) (name : String) :
    Early (Iv.check (.octets iv) size name) :=
  .of_told (Iv.told_check iv size name) (by decide) (by decide)

theorem early_keys (m : CompositeMethod) (secret : Bytes) :
    Early (m.keys (.octets secret) header) := by
  by_cases fit : header.PartiesFit
  · obtain ⟨pair, derived⟩ := m.keys_of_fit secret fit
    rw [derived]
    exact .ok pair
  · rw [m.keys_of_not_fit secret fit]
    exact .fail _

theorem early_checkParts (parts : Parts) : Early (checkParts parts) :=
  .of_told (told_checkParts parts) (by decide) (by decide)

theorem early_checkAlgorithm : Early (d.checkAlgorithm header) :=
  .of_told told_checkAlgorithm (by decide) (by decide)

theorem early_selectMethod : Early (d.selectMethod header) :=
  .of_told told_selectMethod (by decide) (by decide)

theorem checks_of_tagAccepted {parts : Parts} (accepted : TagAccepted (d.decrypt header parts)) :
    ∃ method iv ciphertext tag, d.checkAlgorithm header = .ok ()
      ∧ d.selectMethod header = .ok method ∧ checkParts parts = .ok (iv, ciphertext, tag) := by
  -- Each check is passed, since its errors would have shown nothing about the tag.
  obtain ⟨⟨iv, ciphertext, tag⟩, given, later⟩ := (early_checkParts parts).of_bind accepted
  obtain ⟨_, checked, later⟩ := early_checkAlgorithm.of_bind later
  obtain ⟨method, selected, -⟩ := early_selectMethod.of_bind later
  exact ⟨method, iv, ciphertext, tag, checked, selected, given⟩

theorem authenticate_of_tagAccepted {method : EncryptionMethod}
    (selected : d.selectMethod header = .ok method) {parts : Parts}
    (accepted : TagAccepted (d.decrypt header parts)) :
    ∃ iv ciphertext tag, d.checkAlgorithm header = .ok ()
      ∧ checkParts parts = .ok (iv, ciphertext, tag)
      ∧ TagAccepted (d.authenticate header method "" iv ciphertext tag) := by
  obtain ⟨-, iv, ciphertext, tag, checked, -, given⟩ := checks_of_tagAccepted accepted
  rw [decrypt_eq checked selected given, tagAccepted_bind_decompress_iff] at accepted
  exact ⟨iv, ciphertext, tag, checked, given, accepted⟩

section

variable {iv ciphertext tag : String}

/-- Behind an accepted tag of an AES-GCM method the octets of ciphertext and tag together are
those of a tag at least. -/
theorem octets_of_gcm_tagAccepted {m : GcmMethod} (selected : d.selectMethod header = .ok (.gcm m))
    (accepted : TagAccepted (d.authenticate header (.gcm m) "" iv ciphertext tag)) :
    ∃ data ivBytes hidden tagBytes, Aead.additionalData header.serialized "" = .ok data
      ∧ wireBytes iv = .ok ivBytes ∧ ivBytes.length = Aead.ivSize
      ∧ wireBytes ciphertext = .ok hidden ∧ wireBytes tag = .ok tagBytes
      ∧ Gcm.tagSize ≤ (hidden ++ tagBytes).length := by
  have later := accepted
  unfold authenticate at later
  obtain ⟨tagBytes, read_tag, later⟩ := (early_wireBytes tag).of_bind later
  obtain ⟨data, written, later⟩ := (early_asciiBytes _).of_bind later
  obtain ⟨hidden, read_hidden, later⟩ := (early_wireBytes ciphertext).of_bind later
  obtain ⟨ivBytes, read_iv, later⟩ := (early_wireBytes iv).of_bind later
  unfold Aead.decrypt at later
  rw [master, Aead.keyBytes_eq_ok_iff.2 ⟨key_length_of_gcm selected, rfl⟩, ok_bind] at later
  obtain ⟨_, checked, -⟩ := (early_check ivBytes Aead.ivSize Rejection.gcmName).of_bind later
  have sized : ivBytes.length = Aead.ivSize := Iv.length_of_check checked rfl
  rw [authenticate_gcm selected written read_iv sized read_hidden read_tag] at accepted
  refine ⟨data, ivBytes, hidden, tagBytes, written, read_iv, sized, read_hidden, read_tag, ?_⟩
  apply Nat.not_lt.1
  intro short
  rw [Aead.openText_of_short short] at accepted
  exact not_tagAccepted_forgery (.gcm m) accepted

theorem octets_of_composite_tagAccepted {m : CompositeMethod}
    (accepted : TagAccepted (d.authenticate header (.composite m) "" iv ciphertext tag)) :
    ∃ hidden tagBytes, wireBytes ciphertext = .ok hidden ∧ wireBytes tag = .ok tagBytes
      ∧ tagBytes.length = m.tagSize := by
  unfold authenticate at accepted
  obtain ⟨tagBytes, read_tag, accepted⟩ := (early_wireBytes tag).of_bind accepted
  have later : TagAccepted (m.decrypt d.master header "" iv ciphertext (.octets tagBytes)) :=
    accepted
  unfold CompositeMethod.decrypt at later
  obtain ⟨ivBytes, read_iv, later⟩ := (early_wireBytes iv).of_bind later
  obtain ⟨_, checked, later⟩ := (early_check ivBytes CompositeMethod.ivSize m.name).of_bind later
  obtain ⟨hidden, read_hidden, later⟩ := (early_wireBytes ciphertext).of_bind later
  obtain ⟨pair, derived, later⟩ := (early_keys m d.key.bytes).of_bind later
  obtain ⟨input, written, -⟩ := (early_asciiBytes _).of_bind later
  have opened : m.decrypt d.master header "" iv ciphertext (.octets tagBytes) = _ :=
    CompositeMethod.decrypt_of_keys read_iv (Iv.length_of_check checked rfl) read_hidden derived
      written tagBytes
  refine ⟨hidden, tagBytes, read_hidden, read_tag, ?_⟩
  -- The comparison is with a whole tag, so it settles the length.
  by_cases same : m.tag pair.integrity input = tagBytes
  · rw [← same, CompositeMethod.length_tag]
  · have forged : TagAccepted (reject (.forgedTag m)) := by
      rw [if_neg same] at opened
      rw [← opened]
      exact accepted
    exact absurd forged (not_tagAccepted_forgery (.composite m))

end

end Direct

end TokenCrypto
