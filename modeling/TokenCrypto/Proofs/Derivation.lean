import TokenCrypto.ContentEncryption.Composite

/-!
# The keys of a composite method

Deriving CEK and CIK of a composite method from a secret can fail in one way: the information about
a party (epu or epv) is too long for its field.

* `Derivation.otherInfo_of_fits`, `Derivation.otherInfo_of_overflow`: OtherInfo, field by field, if
  all have room.
* `CompositeMethod.keys_of_fit`, `CompositeMethod.keys_of_not_fit`: when there are keys.
-/

namespace TokenCrypto

/-! ## Fields -/

namespace Derivation

/-- Octets whose number fits a field. -/
def Fits (bytes : Bytes) : Prop := bytes.length < 0x100000000

theorem fits_nil : Fits [] := Nat.zero_lt_succ _

/-- Octets behind their length, as four octets. -/
def field (bytes : Bytes) : Bytes := Bytes.ofNat 4 bytes.length ++ bytes

theorem lengthPrefixed_of_fits {bytes : Bytes} (h : Fits bytes) :
    lengthPrefixed bytes = .ok (field bytes) := by
  unfold Fits at h
  rw [lengthPrefixed, field32, if_pos ⟨by omega, by omega⟩]
  rfl

theorem lengthPrefixed_of_not_fits {bytes : Bytes} (h : ¬ Fits bytes) :
    lengthPrefixed bytes = fail .fieldOverflow := by
  unfold Fits at h
  rw [lengthPrefixed, field32, if_neg (by omega)]
  rfl

/-- A text that begins with a field has no room if it has none behind a field that fits. -/
theorem lengthPrefixed_bind_eq_overflow {α : Type} {bytes : Bytes} {f : Bytes → Except Error α}
    (h : Fits bytes → f (field bytes) = fail .fieldOverflow) :
    lengthPrefixed bytes >>= f = fail .fieldOverflow := by
  by_cases fits : Fits bytes
  · rw [lengthPrefixed_of_fits fits, ok_bind, h fits]
  · rw [lengthPrefixed_of_not_fits fits, fail_bind]

section

variable {label method : String} {labelBytes methodBytes : Bytes} {partyU partyV : Option Bytes}

/-- OtherInfo, field by field. -/
theorem otherInfo_of_fits (hl : asciiBytes label = .ok labelBytes) (fl : Fits labelBytes)
    (hm : asciiBytes method = .ok methodBytes) (fm : Fits methodBytes)
    (fu : Fits (partyU.getD [])) (fv : Fits (partyV.getD [])) {bits : Int}
    (hb : 0 ≤ bits ∧ bits < 0x100000000) :
    otherInfo label method (.ofBytes? partyU) (.ofBytes? partyV) bits =
      .ok (field methodBytes ++ field labelBytes ++ field (partyU.getD [])
        ++ field (partyV.getD []) ++ Bytes.ofNat 4 bits.toNat) := by
  simp only [otherInfo, hl, hm, ok_bind, partyField_ofBytes?, lengthPrefixed_of_fits fl,
    lengthPrefixed_of_fits fm, lengthPrefixed_of_fits fu, lengthPrefixed_of_fits fv, field32,
    if_pos hb, pure_eq_ok]

/-- A field that has no room ends the text. -/
theorem otherInfo_of_overflow (hl : asciiBytes label = .ok labelBytes)
    (hm : asciiBytes method = .ok methodBytes) {bits : Int}
    (overflow : ¬ (Fits methodBytes ∧ Fits labelBytes ∧ Fits (partyU.getD [])
      ∧ Fits (partyV.getD []) ∧ 0 ≤ bits ∧ bits < 0x100000000)) :
    otherInfo label method (.ofBytes? partyU) (.ofBytes? partyV) bits = fail .fieldOverflow := by
  simp only [otherInfo, hl, hm, ok_bind, partyField_ofBytes?]
  refine lengthPrefixed_bind_eq_overflow fun fm => ?_
  refine lengthPrefixed_bind_eq_overflow fun fl => ?_
  refine lengthPrefixed_bind_eq_overflow fun fu => ?_
  refine lengthPrefixed_bind_eq_overflow fun fv => ?_
  -- All the fields behind a length have room, so it is the number of bits that has none.
  have hb : ¬ (0 ≤ bits ∧ bits < 0x100000000) := fun hb => overflow ⟨fm, fl, fu, fv, hb⟩
  rw [field32, if_neg hb, fail_bind]

/-- What a derivation comes to. -/
theorem derive_eq (hash : Hash) {secret : Material} {bytes : Bytes}
    (given : secret.bytes? = some bytes) (u v : Material) (bits : Int) :
    derive hash secret label method u v bits =
      if bits ≤ 0 ∨ bits % 8 ≠ 0 then fail (.derivedBits bits)
      else otherInfo label method u v bits >>= fun info =>
        .ok (expand hash bytes info (bits / 8).toNat) := by
  rw [derive, Material.bytes_eq_ok_iff.2 given, ok_bind]
  rfl

end

end Derivation

/-! ## Pairs of keys -/

open TokenCrypto.Derivation (Fits)

/-- The information about each party (epu and epv) fits its field. -/
def JweHeader.PartiesFit (header : JweHeader) : Prop :=
  Fits (header.partyU.getD []) ∧ Fits (header.partyV.getD [])

namespace CompositeMethod

theorem asciiBytes_name (method : CompositeMethod) :
    ∃ bytes, asciiBytes method.name = .ok bytes ∧ Fits bytes := by
  cases method <;> exact ⟨_, rfl, by unfold Fits; decide⟩

theorem asciiBytes_contentLabel :
    ∃ bytes, asciiBytes KeyPair.contentLabel = .ok bytes ∧ Fits bytes :=
  ⟨_, rfl, by unfold Fits; decide⟩

theorem asciiBytes_integrityLabel :
    ∃ bytes, asciiBytes KeyPair.integrityLabel = .ok bytes ∧ Fits bytes :=
  ⟨_, rfl, by unfold Fits; decide⟩

theorem contentBits_whole (method : CompositeMethod) :
    ¬ ((method.contentBits : Int) ≤ 0 ∨ (method.contentBits : Int) % 8 ≠ 0) := by
  cases method <;> decide

theorem integrityBits_whole (method : CompositeMethod) :
    ¬ ((method.integrityBits : Int) ≤ 0 ∨ (method.integrityBits : Int) % 8 ≠ 0) := by
  cases method <;> decide

theorem bits_lt (method : CompositeMethod) :
    (0 ≤ (method.contentBits : Int) ∧ (method.contentBits : Int) < 0x100000000)
      ∧ (0 ≤ (method.integrityBits : Int) ∧ (method.integrityBits : Int) < 0x100000000) := by
  cases method <;> decide

section

variable (method : CompositeMethod) (secret : Bytes) {header : JweHeader}

/-- There are CEK and CIK if epu and epv fit. -/
theorem keys_of_fit (fit : header.PartiesFit) :
    ∃ pair, method.keys (.octets secret) header = .ok pair := by
  obtain ⟨name, hn, fn⟩ := method.asciiBytes_name
  obtain ⟨content, hc, fc⟩ := asciiBytes_contentLabel
  obtain ⟨integrity, hi, fi⟩ := asciiBytes_integrityLabel
  obtain ⟨content_lt, integrity_lt⟩ := method.bits_lt
  rw [keys, KeyPair.derive, Derivation.derive_eq _ rfl, if_neg method.contentBits_whole,
    Derivation.otherInfo_of_fits hc fc hn fn fit.1 fit.2 content_lt, ok_bind, ok_bind,
    Derivation.derive_eq _ rfl, if_neg method.integrityBits_whole,
    Derivation.otherInfo_of_fits hi fi hn fn fit.1 fit.2 integrity_lt, ok_bind, ok_bind]
  exact ⟨_, rfl⟩

theorem keys_of_not_fit (not_fit : ¬ header.PartiesFit) :
    method.keys (.octets secret) header = fail .fieldOverflow := by
  -- The key for encrypting is derived first, and already has no text about it.
  obtain ⟨name, hn, -⟩ := method.asciiBytes_name
  obtain ⟨content, hc, -⟩ := asciiBytes_contentLabel
  rw [keys, KeyPair.derive, Derivation.derive_eq _ rfl, if_neg method.contentBits_whole,
    Derivation.otherInfo_of_overflow hc hn fun ⟨_, _, fu, fv, _⟩ => not_fit ⟨fu, fv⟩, fail_bind,
    fail_bind]

end

end CompositeMethod

end TokenCrypto
