import TokenCrypto.Proofs.Direct.Accepted

/-!
# The tag of a token

A token is decrypted only if its tag is right, and what went wrong behind the tag shows only to
those who know it. With everything else as it is, there is one right tag of the size of the method;
for every other one the outcome is the same, whatever the ciphertext is. That takes a method that
gets as far as its tag: more than it can take is a fault under every tag.

Composite methods compare tags as a whole. AES-GCM methods take whatever are the last octets of
ciphertext and tag together, so there octets may change sides.

* `Direct.decrypt_one_tag`: one tag of the method's size is accepted, all others are told alike.
* `Direct.no_tag_accepted`: where no tag is looked at.
* `Direct.tag_fixed_iff_composite`: the size of an accepted tag is the method's, and octets may not
  change sides, exactly in the composite methods.
-/

namespace TokenCrypto

/-- What becomes of more than a method can take. -/
def EncryptionMethod.overflow : EncryptionMethod → Fault
  | gcm _ => .tooLongForGcm
  | composite _ => .fieldOverflow

namespace Direct

variable {d : Direct} {header : JweHeader}

/-! ## One right tag -/

section

variable {method : EncryptionMethod} {iv ciphertext : String} {ivBytes hidden : Bytes}

/-- Behind a ciphertext, a tag of full size leaves the sizes to the ciphertext and the AAD. -/
theorem within_append_iff {data tagBytes : Bytes}
    (written : Aead.additionalData header.serialized "" = .ok data)
    (full : tagBytes.length = Gcm.tagSize) :
    Aead.Within ((hidden ++ tagBytes).length - Gcm.tagSize) data.length ↔
      Aead.Within hidden.length (header.serialized.length + 1) := by
  rw [List.length_append, full, Nat.add_sub_cancel, Aead.length_additionalData written]
  rfl

/-- What is authentic depends on the tag by one comparison with the right one. -/
theorem exists_right_tag (selected : d.selectMethod header = .ok method)
    (plain : Ascii.Plain header.serialized) (read_iv : Base64Url.decode? iv = some ivBytes)
    (sized : ivBytes.length = method.ivSize)
    (read_hidden : Base64Url.decode? ciphertext = some hidden)
    (takes : method.Takes header hidden.length) :
    ∃ (right : Bytes) (opened : Except Error Bytes),
      right.length = method.tagSize ∧ TagAccepted opened
      ∧ ∀ tag tagBytes, Base64Url.decode? tag = some tagBytes → tagBytes.length = method.tagSize →
          d.authenticate header method "" iv ciphertext tag =
            if tagBytes = right then opened else reject method.forgery := by
  have wire_iv := wireBytes_eq_ok_iff.2 read_iv
  have wire_hidden := wireBytes_eq_ok_iff.2 read_hidden
  cases method with
  | gcm m =>
    rw [EncryptionMethod.ivSize_gcm] at sized
    obtain ⟨data, written⟩ := Aead.additionalData_of_plain plain .empty
    refine ⟨Gcm.tag (Aes.schedule d.key.bytes) ivBytes data hidden,
      .ok (Gcm.masked (Aes.schedule d.key.bytes) ivBytes hidden), Gcm.length_tag ..,
      tagAccepted_ok _, ?_⟩
    -- A tag of full size is what is cut off again from the octets joined together.
    intro tag tagBytes read_tag full
    have within := (within_append_iff written full).2 takes
    rw [authenticate_gcm selected written wire_iv sized wire_hidden
      (wireBytes_eq_ok_iff.2 read_tag), Aead.openText_of_within within,
      Gcm.decrypt?_append _ _ _ _ full]
    by_cases same : tagBytes = Gcm.tag (Aes.schedule d.key.bytes) ivBytes data hidden
    · simp only [if_pos same]
    · simp only [if_neg same]
      rfl
  | composite m =>
    rw [EncryptionMethod.ivSize_composite] at sized
    obtain ⟨pair, derived⟩ := m.keys_of_fit d.key.bytes takes
    obtain ⟨input, written⟩ := CompositeMethod.macInput_of_plain plain .empty
      (Base64Url.plain_of_decode? read_iv) (Base64Url.plain_of_decode? read_hidden)
    refine ⟨m.tag pair.integrity input, m.openText pair ivBytes hidden, m.length_tag .., ?_, ?_⟩
    · -- The padding is looked at only now, and either finding shows that the tag was right.
      unfold CompositeMethod.openText
      cases Cbc.decrypt? (Aes.schedule pair.content) ivBytes hidden with
      | some text => exact tagAccepted_ok text
      | none => exact Or.inl rfl
    · intro tag tagBytes read_tag _
      rw [authenticate_composite m (wireBytes_eq_ok_iff.2 read_tag), master,
        CompositeMethod.decrypt_of_keys wire_iv sized wire_hidden derived written]
      by_cases same : m.tag pair.integrity input = tagBytes
      · exact (if_pos same).trans (if_pos same.symm).symm
      · exact (if_neg same).trans (if_neg (Ne.symm same)).symm

/-- Under a tag of the method's size, more than the method can take is a fault. -/
theorem authenticate_of_not_takes (selected : d.selectMethod header = .ok method)
    (plain : Ascii.Plain header.serialized) (read_iv : Base64Url.decode? iv = some ivBytes)
    (sized : ivBytes.length = method.ivSize)
    (read_hidden : Base64Url.decode? ciphertext = some hidden)
    (too_much : ¬ method.Takes header hidden.length) {tag : String} {tagBytes : Bytes}
    (read_tag : Base64Url.decode? tag = some tagBytes)
    (full : tagBytes.length = method.tagSize) :
    d.authenticate header method "" iv ciphertext tag = fail method.overflow := by
  have wire_iv := wireBytes_eq_ok_iff.2 read_iv
  have wire_hidden := wireBytes_eq_ok_iff.2 read_hidden
  have wire_tag := wireBytes_eq_ok_iff.2 read_tag
  cases method with
  | gcm m =>
    rw [EncryptionMethod.ivSize_gcm] at sized
    obtain ⟨data, written⟩ := Aead.additionalData_of_plain plain .empty
    have enough : Gcm.tagSize ≤ (hidden ++ tagBytes).length := by
      rw [List.length_append, full]
      exact Nat.le_add_left ..
    rw [authenticate_gcm selected written wire_iv sized wire_hidden wire_tag]
    exact Aead.openText_of_beyond enough (mt (within_append_iff written full).1 too_much)
  | composite m =>
    rw [EncryptionMethod.ivSize_composite] at sized
    rw [authenticate_composite m wire_tag, master]
    exact CompositeMethod.decrypt_of_no_keys wire_iv sized wire_hidden
      (m.keys_of_not_fit d.key.bytes too_much) tagBytes

theorem checkParts_given {encryptedKey : Option String} (no_key : encryptedKey.getD "" = "")
    (iv ciphertext tag : String) :
    checkParts ⟨encryptedKey, some iv, some ciphertext, some tag⟩ = .ok (iv, ciphertext, tag) :=
  checkParts_eq_ok_iff.2 ⟨no_key, rfl, rfl, rfl⟩

theorem decrypt_of_not_takes (checked : d.checkAlgorithm header = .ok ())
    (selected : d.selectMethod header = .ok method) (plain : Ascii.Plain header.serialized)
    {encryptedKey : Option String} (no_key : encryptedKey.getD "" = "")
    (read_iv : Base64Url.decode? iv = some ivBytes) (sized : ivBytes.length = method.ivSize)
    (read_hidden : Base64Url.decode? ciphertext = some hidden)
    (too_much : ¬ method.Takes header hidden.length) {tag : String} {tagBytes : Bytes}
    (read_tag : Base64Url.decode? tag = some tagBytes)
    (full : tagBytes.length = method.tagSize) :
    d.decrypt header ⟨encryptedKey, some iv, some ciphertext, some tag⟩ =
      fail method.overflow := by
  rw [decrypt_eq checked selected (checkParts_given no_key iv ciphertext tag),
    authenticate_of_not_takes selected plain read_iv sized read_hidden too_much read_tag full,
    fail_bind]

/-- Whatever the ciphertext is, one tag of the method's size is found right, and for every other one
the outcome is the same rejection. There has to be no encrypted key, and no more than the method can
take; more than that is a fault under every tag. -/
theorem decrypt_one_tag (d : Direct) {header : JweHeader}
    (checked : d.checkAlgorithm header = .ok ()) (selected : d.selectMethod header = .ok method)
    (plain : Ascii.Plain header.serialized) {encryptedKey : Option String}
    (no_key : encryptedKey.getD "" = "") (read_iv : Base64Url.decode? iv = some ivBytes)
    (sized : ivBytes.length = method.ivSize)
    (read_hidden : Base64Url.decode? ciphertext = some hidden) :
    (method.Takes header hidden.length →
      ∃ right : Bytes, right.length = method.tagSize
        ∧ ∀ tag tagBytes, Base64Url.decode? tag = some tagBytes →
          tagBytes.length = method.tagSize →
          (TagAccepted (d.decrypt header ⟨encryptedKey, some iv, some ciphertext, some tag⟩) ↔
            tagBytes = right)
          ∧ (tagBytes ≠ right →
            d.decrypt header ⟨encryptedKey, some iv, some ciphertext, some tag⟩ =
                reject method.forgery
              ∧ method.forgery.report.category = .integrity))
    ∧ (¬ method.Takes header hidden.length →
        ∀ tag tagBytes, Base64Url.decode? tag = some tagBytes →
          tagBytes.length = method.tagSize →
          d.decrypt header ⟨encryptedKey, some iv, some ciphertext, some tag⟩ =
            fail method.overflow) := by
  constructor
  · intro takes
    obtain ⟨right, opened, full, accepted, by_tag⟩ :=
      exists_right_tag selected plain read_iv sized read_hidden takes
    refine ⟨right, full, ?_⟩
    intro tag tagBytes read_tag length_eq
    rw [decrypt_eq checked selected (checkParts_given no_key iv ciphertext tag),
      by_tag tag tagBytes read_tag length_eq, tagAccepted_bind_decompress_iff]
    by_cases same : tagBytes = right
    · rw [if_pos same]
      exact ⟨⟨fun _ => same, fun _ => accepted⟩, fun other => absurd same other⟩
    · rw [if_neg same, reject_bind]
      refine ⟨⟨?_, fun same' => absurd same' same⟩, fun _ => ⟨rfl, method.category_forgery⟩⟩
      intro taken
      exact absurd taken (not_tagAccepted_forgery method)
  · intro too_much tag tagBytes read_tag length_eq
    exact decrypt_of_not_takes checked selected plain no_key read_iv sized read_hidden too_much
      read_tag length_eq

/-- Less than a block, behind a header whose zip is unknown. -/
theorem decrypt_one_tag_broken_block :
    ∃ d : Direct, create (.symmetric ⟨List.replicate 32 0⟩) .standard Codecs.standard = .ok d
      ∧ ∃ right : Bytes, right.length = 16
        ∧ ∀ tag tagBytes, Base64Url.decode? tag = some tagBytes → tagBytes.length = 16 →
          (TagAccepted (d.decrypt ⟨"dir", "A128CBC-HS256", some "LZW", none, none, "e30"⟩
              ⟨none, some "AAAAAAAAAAAAAAAAAAAAAA", some "AA", some tag⟩) ↔ tagBytes = right) := by
  generalize hh : JweHeader.mk _ _ _ _ _ _ = header
  have checked : Sample.wide.checkAlgorithm header = .ok () := by
    subst hh
    rfl
  have selected : Sample.wide.selectMethod header = .ok (.composite .a128cbcHs256) := by
    subst hh
    rfl
  have plain : Ascii.Plain header.serialized := by
    subst hh
    exact Sample.plain_empty_object
  have fit : header.PartiesFit := by
    subst hh
    exact ⟨Derivation.fits_nil, Derivation.fits_nil⟩
  have no_key : (none : Option String).getD "" = "" := rfl
  obtain ⟨right, full, one⟩ := (decrypt_one_tag Sample.wide checked selected plain no_key
    Sample.read_sixteen (by decide) Sample.read_octet).1 fit
  refine ⟨Sample.wide, create_symmetric _ Sample.wide.key_bits _ _, right, full, ?_⟩
  intro tag tagBytes read_tag length_eq
  exact (one tag tagBytes read_tag length_eq).1

end

/-! ## Where no tag is looked at -/

/-- A composite method has no CEK and CIK where the information about a party (epu) is too long. -/
theorem Sample.no_tag_of_long_party {info : Bytes} (long : ¬ Derivation.Fits info) :
    ∃ header : JweHeader, header = ⟨"dir", "A128CBC-HS256", none, some info, none, "e30"⟩
      ∧ wide.checkAlgorithm header = .ok ()
      ∧ wide.selectMethod header = .ok (.composite .a128cbcHs256)
      ∧ Ascii.Plain header.serialized
      ∧ ∀ tag tagBytes, Base64Url.decode? tag = some tagBytes → tagBytes.length = 16 →
        wide.decrypt header ⟨none, some "AAAAAAAAAAAAAAAAAAAAAA", some "AA", some tag⟩ =
          fail .fieldOverflow := by
  generalize hh : JweHeader.mk _ _ _ _ _ _ = header
  have checked : wide.checkAlgorithm header = .ok () := by
    subst hh
    rfl
  have selected : wide.selectMethod header = .ok (.composite .a128cbcHs256) := by
    subst hh
    rfl
  have plain : Ascii.Plain header.serialized := by
    subst hh
    exact plain_empty_object
  have too_much : ¬ (EncryptionMethod.composite .a128cbcHs256).Takes header [0].length := by
    subst hh
    exact fun fit => long fit.1
  have no_key : (none : Option String).getD "" = "" := rfl
  refine ⟨header, rfl, checked, selected, plain, ?_⟩
  intro tag tagBytes read_tag full
  exact decrypt_of_not_takes checked selected plain no_key read_sixteen (by decide) read_octet
    too_much read_tag full

/-- An AES-GCM method does not take a header that leaves no room in the AAD. -/
theorem Sample.no_tag_of_long_header {text : String} (written : Ascii.Plain text)
    (long : Aead.sizeLimit < text.length + 1) :
    ∃ header : JweHeader, header = ⟨"dir", "A256GCM", none, none, none, text⟩
      ∧ wide.checkAlgorithm header = .ok () ∧ wide.selectMethod header = .ok (.gcm .a256gcm)
      ∧ Ascii.Plain header.serialized
      ∧ ∀ tag tagBytes, Base64Url.decode? tag = some tagBytes → tagBytes.length = 16 →
        wide.decrypt header ⟨none, some "AAAAAAAAAAAAAAAA", some "AA", some tag⟩ =
          fail .tooLongForGcm := by
  generalize hh : JweHeader.mk _ _ _ _ _ _ = header
  have checked : wide.checkAlgorithm header = .ok () := by
    subst hh
    rfl
  have selected : wide.selectMethod header = .ok (.gcm .a256gcm) := by
    subst hh
    rfl
  have plain : Ascii.Plain header.serialized := by
    subst hh
    exact written
  have too_much : ¬ (EncryptionMethod.gcm .a256gcm).Takes header [0].length := by
    subst hh
    exact fun within => Nat.not_le.2 long within.2
  have no_key : (none : Option String).getD "" = "" := rfl
  refine ⟨header, rfl, checked, selected, plain, ?_⟩
  intro tag tagBytes read_tag full
  exact decrypt_of_not_takes checked selected plain no_key read_twelve (by decide) read_octet
    too_much read_tag full

/-- No tag is accepted where the information about a party (epu) has 2³² octets, where the header
leaves no room in the AAD for the point behind it, or where there is an encrypted key. -/
theorem no_tag_accepted :
    ∃ d : Direct, create (.symmetric ⟨List.replicate 32 0⟩) .standard Codecs.standard = .ok d
      ∧ (∃ header : JweHeader, header = ⟨"dir", "A128CBC-HS256", none,
            some (List.replicate 0x100000000 0), none, "e30"⟩
          ∧ d.checkAlgorithm header = .ok ()
          ∧ d.selectMethod header = .ok (.composite .a128cbcHs256)
          ∧ Ascii.Plain header.serialized
          ∧ ∀ tag tagBytes, Base64Url.decode? tag = some tagBytes → tagBytes.length = 16 →
            d.decrypt header ⟨none, some "AAAAAAAAAAAAAAAAAAAAAA", some "AA", some tag⟩ =
              fail .fieldOverflow)
      ∧ (∃ header : JweHeader, header = ⟨"dir", "A256GCM", none, none, none,
            String.ofList (List.replicate 0x7fffffff 'A')⟩
          ∧ d.checkAlgorithm header = .ok () ∧ d.selectMethod header = .ok (.gcm .a256gcm)
          ∧ Ascii.Plain header.serialized
          ∧ ∀ tag tagBytes, Base64Url.decode? tag = some tagBytes → tagBytes.length = 16 →
            d.decrypt header ⟨none, some "AAAAAAAAAAAAAAAA", some "AA", some tag⟩ =
              fail .tooLongForGcm)
      ∧ ∀ tag, d.decrypt ⟨"dir", "A128CBC-HS256", none, none, none, "e30"⟩
            ⟨some "AA", some "AAAAAAAAAAAAAAAAAAAAAA", some "AA", some tag⟩ =
          reject .encryptedKeyPresent := by
  have long_party : ¬ Derivation.Fits (List.replicate 0x100000000 0) := by
    rw [Derivation.Fits, List.length_replicate]
    decide
  have long_header :
      Aead.sizeLimit < (String.ofList (List.replicate 0x7fffffff 'A')).length + 1 := by
    rw [String.length_ofList, List.length_replicate]
    decide
  exact ⟨Sample.wide, create_symmetric _ Sample.wide.key_bits _ _,
    Sample.no_tag_of_long_party long_party,
    Sample.no_tag_of_long_header (.ofList_replicate (by decide) _) long_header, fun _ => rfl⟩

end Direct

/-! ## Octets that change sides -/

namespace Parts

/-- The octets of the ciphertext and of the tag. -/
def Holds (parts : Parts) (hidden tag : Bytes) : Prop :=
  parts.ciphertext.bind Base64Url.decode? = some hidden
  ∧ parts.tag.bind Base64Url.decode? = some tag

/-- Octets have changed sides between ciphertext and tag, and all else is the same. -/
def Moved (parts other : Parts) : Prop :=
  other.encryptedKeyText = parts.encryptedKeyText ∧ other.iv = parts.iv
  ∧ ∃ hidden tag hidden' tag', parts.Holds hidden tag ∧ other.Holds hidden' tag'
    ∧ hidden' ++ tag' = hidden ++ tag ∧ hidden' ≠ hidden

theorem Holds.unique {parts : Parts} {hidden hidden' tag tag' : Bytes}
    (h : parts.Holds hidden tag) (h' : parts.Holds hidden' tag') :
    hidden' = hidden ∧ tag' = tag := by
  obtain ⟨hc, ht⟩ := h
  obtain ⟨hc', ht'⟩ := h'
  rw [hc] at hc'
  rw [ht] at ht'
  exact ⟨(Option.some.inj hc').symm, (Option.some.inj ht').symm⟩

/-- Where there are octets at all, one of them can change sides. -/
theorem Holds.exists_moved {parts : Parts} {hidden tag : Bytes} (h : parts.Holds hidden tag)
    (some_octets : hidden ++ tag ≠ []) : ∃ other, parts.Moved other := by
  have cut (hidden' tag' : Bytes) (same : hidden' ++ tag' = hidden ++ tag)
      (elsewhere : hidden' ≠ hidden) : ∃ other, parts.Moved other := by
    refine ⟨⟨parts.encryptedKey, parts.iv, some (Base64Url.encode hidden'),
      some (Base64Url.encode tag')⟩, rfl, rfl, hidden, tag, hidden', tag', h, ?_, same, elsewhere⟩
    exact ⟨Base64Url.decode?_encode hidden', Base64Url.decode?_encode tag'⟩
  by_cases empty : hidden = []
  · refine cut (hidden ++ tag) [] (List.append_nil _) ?_
    rw [empty] at some_octets ⊢
    exact some_octets
  · exact cut [] (hidden ++ tag) (List.nil_append _) (Ne.symm empty)

end Parts

namespace Direct

variable {d : Direct} {header : JweHeader} {parts : Parts}

theorem holds_of_checkParts {iv ciphertext tag : String}
    (given : checkParts parts = .ok (iv, ciphertext, tag)) {hidden tagBytes : Bytes}
    (read_hidden : wireBytes ciphertext = .ok hidden) (read_tag : wireBytes tag = .ok tagBytes) :
    parts.Holds hidden tagBytes := by
  obtain ⟨-, -, hc, ht⟩ := checkParts_eq_ok_iff.1 given
  rw [Parts.Holds, hc, ht]
  exact ⟨wireBytes_eq_ok_iff.1 read_hidden, wireBytes_eq_ok_iff.1 read_tag⟩

theorem length_tag_of_composite {m : CompositeMethod}
    (selected : d.selectMethod header = .ok (.composite m))
    (accepted : TagAccepted (d.decrypt header parts)) :
    ∃ hidden tag, parts.Holds hidden tag ∧ tag.length = m.tagSize := by
  obtain ⟨iv, ciphertext, tag, -, given, accepted⟩ := authenticate_of_tagAccepted selected accepted
  obtain ⟨hidden, tagBytes, read_hidden, read_tag, length_eq⟩ :=
    octets_of_composite_tagAccepted accepted
  exact ⟨hidden, tagBytes, holds_of_checkParts given read_hidden read_tag, length_eq⟩

theorem not_tagAccepted_moved {m : CompositeMethod}
    (selected : d.selectMethod header = .ok (.composite m))
    (accepted : TagAccepted (d.decrypt header parts)) {other : Parts} (moved : parts.Moved other) :
    ¬ TagAccepted (d.decrypt header other) := by
  intro accepted'
  obtain ⟨-, -, hidden, tag, hidden', tag', holds, holds', same, elsewhere⟩ := moved
  obtain ⟨h, t, h_holds, t_length⟩ := length_tag_of_composite selected accepted
  obtain ⟨h', t', h_holds', t_length'⟩ := length_tag_of_composite selected accepted'
  -- Both tags have the size of the method, so both messages are cut at the same place.
  obtain ⟨rfl, rfl⟩ := holds.unique h_holds
  obtain ⟨rfl, rfl⟩ := holds'.unique h_holds'
  exact elsewhere (List.append_inj_left' same (by rw [t_length, t_length']))

/-- An AES-GCM method treats octets that have changed sides as if they had not. -/
theorem decrypt_moved {m : GcmMethod} (selected : d.selectMethod header = .ok (.gcm m))
    (accepted : TagAccepted (d.decrypt header parts)) :
    ∃ hidden tag, parts.Holds hidden tag ∧ Gcm.tagSize ≤ (hidden ++ tag).length
      ∧ ∀ other, parts.Moved other → d.decrypt header other = d.decrypt header parts := by
  obtain ⟨iv, ciphertext, tag, checked, given, accepted⟩ :=
    authenticate_of_tagAccepted selected accepted
  obtain ⟨data, ivBytes, hidden, tagBytes, written, read_iv, sized, read_hidden, read_tag,
    enough⟩ := octets_of_gcm_tagAccepted selected accepted
  have holds := holds_of_checkParts given read_hidden read_tag
  refine ⟨hidden, tagBytes, holds, enough, ?_⟩
  rintro other ⟨key_eq, iv_eq, h, t, h', t', h_holds, ⟨hc', ht'⟩, same, -⟩
  obtain ⟨rfl, rfl⟩ := holds.unique h_holds
  obtain ⟨ciphertext', given_hidden', read_hidden'⟩ := Option.bind_eq_some_iff.1 hc'
  obtain ⟨tag', given_tag', read_tag'⟩ := Option.bind_eq_some_iff.1 ht'
  obtain ⟨no_key, given_iv, -, -⟩ := checkParts_eq_ok_iff.1 given
  have given' : checkParts other = .ok (iv, ciphertext', tag') :=
    checkParts_eq_ok_iff.2 ⟨by rw [key_eq, no_key], by rw [iv_eq, given_iv], given_hidden',
      given_tag'⟩
  rw [decrypt_eq checked selected given', decrypt_eq checked selected given,
    authenticate_gcm selected written read_iv sized (wireBytes_eq_ok_iff.2 read_hidden')
      (wireBytes_eq_ok_iff.2 read_tag'),
    authenticate_gcm selected written read_iv sized read_hidden read_tag, same]

/-- An accepted tag has the size of its method, and no octets may change sides, exactly if the
method is a composite one. An AES-GCM method takes ciphertext and tag together, wherever they are
cut apart, as long as there are octets enough for a tag. -/
theorem tag_fixed_iff_composite (d : Direct) {header : JweHeader} {parts : Parts}
    (accepted : TagAccepted (d.decrypt header parts)) :
    ∃ method hidden tag, d.selectMethod header = .ok method ∧ parts.Holds hidden tag
      ∧ ((tag.length = method.tagSize
          ∧ ∀ other, parts.Moved other → ¬ TagAccepted (d.decrypt header other)) ↔
        ∃ m, method = .composite m)
      ∧ ∀ m, method = .gcm m → Gcm.tagSize ≤ (hidden ++ tag).length
          ∧ ∀ other, parts.Moved other → d.decrypt header other = d.decrypt header parts := by
  obtain ⟨method, -, -, -, -, selected, -⟩ := checks_of_tagAccepted accepted
  cases method with
  | composite m =>
    obtain ⟨hidden, tag, holds, length_eq⟩ := length_tag_of_composite selected accepted
    refine ⟨.composite m, hidden, tag, selected, holds, ?_, nofun⟩
    refine ⟨fun _ => ⟨m, rfl⟩, fun _ => ⟨length_eq, ?_⟩⟩
    intro other moved
    exact not_tagAccepted_moved selected accepted moved
  | gcm m =>
    obtain ⟨hidden, tag, holds, enough, unmoved⟩ := decrypt_moved selected accepted
    refine ⟨.gcm m, hidden, tag, selected, holds, ⟨?_, nofun⟩, fun _ _ => ⟨enough, unmoved⟩⟩
    -- There is a message with an octet on the other side, and it is accepted, too.
    rintro ⟨-, none_accepted⟩
    have some_octets : hidden ++ tag ≠ [] := by
      intro empty
      rw [empty] at enough
      exact absurd enough (by decide)
    obtain ⟨other, moved⟩ := holds.exists_moved some_octets
    refine absurd ?_ (none_accepted other moved)
    rw [unmoved other moved]
    exact accepted

/-- An encrypted octet, and the same message with that octet in front of the tag: both are accepted,
the second with a tag of seventeen octets. -/
theorem moved_octet_accepted :
    ∃ d, create (.symmetric ⟨List.replicate 16 0⟩) .standard Codecs.standard = .ok d
      ∧ ∃ header : JweHeader, header = ⟨"dir", "A128GCM", none, none, none,
            "eyJhbGciOiJkaXIiLCJlbmMiOiJBMTI4R0NNIn0"⟩
      ∧ d.selectMethod header = .ok (.gcm .a128gcm)
      ∧ d.decrypt header ⟨none, some "AAAAAAAAAAAAAAAA", some "Qg", some "K6SeJFWGvg8oNhtqYUFKAw"⟩
          = .ok [65]
      ∧ d.decrypt header ⟨none, some "AAAAAAAAAAAAAAAA", some "", some "QiukniRVhr4PKDYbamFBSgM"⟩
          = .ok [65]
      ∧ (Base64Url.decode? "QiukniRVhr4PKDYbamFBSgM").map List.length = some 17
      ∧ (EncryptionMethod.gcm .a128gcm).tagSize = 16 := by
  have made := create_symmetric ⟨List.replicate 16 0⟩ ⟨.gcm .a128gcm, by decide, rfl⟩ .standard
    Codecs.standard
  refine ⟨_, made, _, rfl, rfl, ?_, ?_, ?_, rfl⟩
  · decide +kernel
  · decide +kernel
  · decide +kernel

/-- The first of these messages, whose cut does not matter. -/
theorem tag_fixed_iff_composite_gcm :
    ∃ d, create (.symmetric ⟨List.replicate 16 0⟩) .standard Codecs.standard = .ok d
      ∧ ∃ header parts, TagAccepted (d.decrypt header parts)
        ∧ d.selectMethod header = .ok (.gcm .a128gcm)
        ∧ ∃ hidden tag, parts.Holds hidden tag ∧ ¬ (tag.length = 16
          ∧ ∀ other, parts.Moved other → ¬ TagAccepted (d.decrypt header other)) := by
  have made := create_symmetric ⟨List.replicate 16 0⟩ ⟨.gcm .a128gcm, by decide, rfl⟩ .standard
    Codecs.standard
  generalize hd : Direct.mk _ _ _ _ = d at made
  have decrypted : d.decrypt ⟨"dir", "A128GCM", none, none, none,
      "eyJhbGciOiJkaXIiLCJlbmMiOiJBMTI4R0NNIn0"⟩
      ⟨none, some "AAAAAAAAAAAAAAAA", some "Qg", some "K6SeJFWGvg8oNhtqYUFKAw"⟩ = .ok [65] := by
    subst hd
    decide +kernel
  have accepted := tagAccepted_ok [65]
  rw [← decrypted] at accepted
  obtain ⟨method, hidden, tag, selected, holds, fixed_iff, -⟩ := tag_fixed_iff_composite d accepted
  have selected' : d.selectMethod ⟨"dir", "A128GCM", none, none, none,
      "eyJhbGciOiJkaXIiLCJlbmMiOiJBMTI4R0NNIn0"⟩ = .ok (.gcm .a128gcm) := by
    subst hd
    rfl
  obtain rfl : method = .gcm .a128gcm := by
    rw [selected'] at selected
    exact (Except.ok.inj selected).symm
  refine ⟨d, made, _, _, accepted, selected', hidden, tag, holds, ?_⟩
  intro fixed
  obtain ⟨m, hm⟩ := fixed_iff.1 fixed
  cases hm

end Direct

end TokenCrypto
