import TokenCrypto.Proofs.Derivation
import TokenCrypto.Proofs.Text.Plain

/-!
# The text about a key

In the text about a key (OtherInfo) the method, what the key is for (the label), the two parties
(epu and epv) and the length stand one behind the other, each behind its own length or of a fixed
width. So the text tells each of them, whatever the parties put into theirs, and no digest that
makes up a CEK is taken of what makes up a CIK.

* `KeyInfo.otherInfo_eq_ok_iff`: which information has a text, and the text field by field.
* `Derivation.field_append_inj`: octets behind their length tell where they end.
* `KeyInfo.octets_eq_iff`: the text tells all of the information.
-/

namespace TokenCrypto

namespace Derivation

/-! ## Fields -/

theorem lengthPrefixed_eq_ok_iff {bytes text : Bytes} :
    lengthPrefixed bytes = .ok text ↔ Fits bytes ∧ text = field bytes := by
  by_cases fits : Fits bytes
  · simp [lengthPrefixed_of_fits fits, fits, eq_comm]
  · simp [lengthPrefixed_of_not_fits fits, fits]

theorem field32_eq_ok_iff {n : Int} {text : Bytes} :
    field32 n = .ok text ↔ (0 ≤ n ∧ n < 0x100000000) ∧ text = Bytes.ofNat 4 n.toNat := by
  by_cases fits : 0 ≤ n ∧ n < 0x100000000
  · simp [field32, fits, eq_comm]
  · simp [field32, fits]

/-- Octets behind their length tell where they end. -/
theorem field_append_inj {a b rest rest' : Bytes} (ha : Fits a) (hb : Fits b)
    (h : field a ++ rest = field b ++ rest') : a = b ∧ rest = rest' := by
  rw [field, field, List.append_assoc, List.append_assoc] at h
  obtain ⟨lengths, behind⟩ := List.append_inj h (by rw [Bytes.length_ofNat, Bytes.length_ofNat])
  exact List.append_inj behind (Bytes.ofNat_inj ha hb lengths)

end Derivation

/-! ## Information -/

open TokenCrypto.Derivation (Fits field)

/-- What is told about a key: what it is for (the label), the method, the two parties (epu and epv),
and its length. -/
structure KeyInfo where
  label : String
  method : String
  partyU : Option Bytes
  partyV : Option Bytes
  bits : Int

namespace KeyInfo

def otherInfo (info : KeyInfo) : Except Error Bytes :=
  Derivation.otherInfo info.label info.method (.ofBytes? info.partyU) (.ofBytes? info.partyV)
    info.bits

/-- Both names are within ASCII, and every length and the number of bits fit a field of 32 bits. -/
structure Writable (info : KeyInfo) : Prop where
  label_plain : Ascii.Plain info.label
  method_plain : Ascii.Plain info.method
  label_fits : Fits (info.label.toList.map Ascii.octet)
  method_fits : Fits (info.method.toList.map Ascii.octet)
  partyU_fits : Fits (info.partyU.getD [])
  partyV_fits : Fits (info.partyV.getD [])
  bits_fit : 0 ≤ info.bits ∧ info.bits < 0x100000000

theorem Writable.of_ascii {info : KeyInfo} {label method : Bytes}
    (label_ascii : asciiBytes info.label = .ok label) (label_fits : Fits label)
    (method_ascii : asciiBytes info.method = .ok method) (method_fits : Fits method)
    (partyU_fits : Fits (info.partyU.getD [])) (partyV_fits : Fits (info.partyV.getD []))
    (bits_fit : 0 ≤ info.bits ∧ info.bits < 0x100000000) : info.Writable := by
  obtain ⟨label_plain, rfl⟩ := asciiBytes_eq_ok_iff.1 label_ascii
  obtain ⟨method_plain, rfl⟩ := asciiBytes_eq_ok_iff.1 method_ascii
  exact { label_plain, method_plain, label_fits, method_fits, partyU_fits, partyV_fits, bits_fit }

/-- OtherInfo, field by field. -/
def octets (info : KeyInfo) : Bytes :=
  field (info.method.toList.map Ascii.octet) ++ field (info.label.toList.map Ascii.octet)
    ++ field (info.partyU.getD []) ++ field (info.partyV.getD [])
    ++ Bytes.ofNat 4 info.bits.toNat

theorem otherInfo_eq_ok_iff {info : KeyInfo} {text : Bytes} :
    info.otherInfo = .ok text ↔ info.Writable ∧ text = info.octets := by
  constructor
  · intro h
    obtain ⟨method, method_ascii, h⟩ := bind_eq_ok_iff.1 h
    obtain ⟨method_plain, rfl⟩ := asciiBytes_eq_ok_iff.1 method_ascii
    obtain ⟨methodField, method_written, h⟩ := bind_eq_ok_iff.1 h
    obtain ⟨method_fits, rfl⟩ := Derivation.lengthPrefixed_eq_ok_iff.1 method_written
    obtain ⟨label, label_ascii, h⟩ := bind_eq_ok_iff.1 h
    obtain ⟨label_plain, rfl⟩ := asciiBytes_eq_ok_iff.1 label_ascii
    obtain ⟨labelField, label_written, h⟩ := bind_eq_ok_iff.1 h
    obtain ⟨label_fits, rfl⟩ := Derivation.lengthPrefixed_eq_ok_iff.1 label_written
    simp only [Derivation.partyField_ofBytes?] at h
    obtain ⟨partyU, partyU_written, h⟩ := bind_eq_ok_iff.1 h
    obtain ⟨partyU_fits, rfl⟩ := Derivation.lengthPrefixed_eq_ok_iff.1 partyU_written
    obtain ⟨partyV, partyV_written, h⟩ := bind_eq_ok_iff.1 h
    obtain ⟨partyV_fits, rfl⟩ := Derivation.lengthPrefixed_eq_ok_iff.1 partyV_written
    obtain ⟨bits, bits_written, h⟩ := bind_eq_ok_iff.1 h
    obtain ⟨bits_fit, rfl⟩ := Derivation.field32_eq_ok_iff.1 bits_written
    refine ⟨?_, (Except.ok.inj h).symm⟩
    exact { label_plain, method_plain, label_fits, method_fits, partyU_fits, partyV_fits, bits_fit }
  · rintro ⟨h, rfl⟩
    exact Derivation.otherInfo_of_fits (asciiBytes_eq_ok_iff.2 ⟨h.label_plain, rfl⟩) h.label_fits
      (asciiBytes_eq_ok_iff.2 ⟨h.method_plain, rfl⟩) h.method_fits h.partyU_fits h.partyV_fits
      h.bits_fit

/-- Two tell the same about a key: nothing about a party is as much as no octets. -/
structure Same (info other : KeyInfo) : Prop where
  label_eq : info.label = other.label
  method_eq : info.method = other.method
  partyU_eq : info.partyU.getD [] = other.partyU.getD []
  partyV_eq : info.partyV.getD [] = other.partyV.getD []
  bits_eq : info.bits = other.bits

/-- The text tells all of the information. -/
theorem octets_eq_iff {info other : KeyInfo} (h : info.Writable) (h' : other.Writable) :
    info.octets = other.octets ↔ info.Same other := by
  constructor
  · intro same
    simp only [octets, List.append_assoc] at same
    obtain ⟨method_eq, same⟩ := Derivation.field_append_inj h.method_fits h'.method_fits same
    obtain ⟨label_eq, same⟩ := Derivation.field_append_inj h.label_fits h'.label_fits same
    obtain ⟨partyU_eq, same⟩ := Derivation.field_append_inj h.partyU_fits h'.partyU_fits same
    obtain ⟨partyV_eq, same⟩ := Derivation.field_append_inj h.partyV_fits h'.partyV_fits same
    constructor
    case label_eq =>
      exact asciiBytes_inj (asciiBytes_eq_ok_iff.2 ⟨h.label_plain, rfl⟩)
        (asciiBytes_eq_ok_iff.2 ⟨h'.label_plain, label_eq⟩)
    case method_eq =>
      exact asciiBytes_inj (asciiBytes_eq_ok_iff.2 ⟨h.method_plain, rfl⟩)
        (asciiBytes_eq_ok_iff.2 ⟨h'.method_plain, method_eq⟩)
    case partyU_eq => exact partyU_eq
    case partyV_eq => exact partyV_eq
    case bits_eq =>
      have fits := h.bits_fit
      have fits' := h'.bits_fit
      have bits_eq : info.bits.toNat = other.bits.toNat :=
        Bytes.ofNat_inj (by omega) (by omega) same
      omega
  · rintro ⟨label_eq, method_eq, partyU_eq, partyV_eq, bits_eq⟩
    simp only [octets, label_eq, method_eq, partyU_eq, partyV_eq, bits_eq]

/-! ## The two keys of a method -/

/-- What is told about the CEK. -/
def content (method : CompositeMethod) (partyU partyV : Option Bytes) : KeyInfo where
  label := KeyPair.contentLabel
  method := method.name
  partyU
  partyV
  bits := method.contentBits

/-- What is told about the CIK. -/
def integrity (method : CompositeMethod) (partyU partyV : Option Bytes) : KeyInfo where
  label := KeyPair.integrityLabel
  method := method.name
  partyU
  partyV
  bits := method.integrityBits

section

variable (method : CompositeMethod) (partyU partyV : Option Bytes) (fitsU : Fits (partyU.getD []))
  (fitsV : Fits (partyV.getD []))

include fitsU fitsV

theorem content_writable : (content method partyU partyV).Writable := by
  obtain ⟨name, name_ascii, name_fits⟩ := method.asciiBytes_name
  obtain ⟨label, label_ascii, label_fits⟩ := CompositeMethod.asciiBytes_contentLabel
  exact .of_ascii label_ascii label_fits name_ascii name_fits fitsU fitsV method.bits_lt.1

theorem integrity_writable : (integrity method partyU partyV).Writable := by
  obtain ⟨name, name_ascii, name_fits⟩ := method.asciiBytes_name
  obtain ⟨label, label_ascii, label_fits⟩ := CompositeMethod.asciiBytes_integrityLabel
  exact .of_ascii label_ascii label_fits name_ascii name_fits fitsU fitsV method.bits_lt.2

end

/-- OtherInfo, the text about a key, tells all of the information, but for the difference between a
party about which nothing is told and one about which no octets are. So nothing that is hashed for a
CEK is hashed for a CIK, whatever the parties, the methods and the counters, as long as the secrets
have one length. -/
theorem otherInfo_eq_iff_same :
    (∀ info other : KeyInfo, info.Writable → other.Writable →
      ∃ text text', info.otherInfo = .ok text ∧ other.otherInfo = .ok text'
        ∧ (text = text' ↔ info.Same other))
    ∧ ∀ (method method' : CompositeMethod) (partyU partyV partyU' partyV' : Option Bytes)
        (text text' : Bytes), (content method partyU partyV).otherInfo = .ok text →
        (integrity method' partyU' partyV').otherInfo = .ok text' →
      ∀ (secret secret' : Bytes), secret.length = secret'.length → ∀ counter counter' : Nat,
        Derivation.roundInput secret text counter
          ≠ Derivation.roundInput secret' text' counter' := by
  constructor
  · intro info other h h'
    exact ⟨_, _, otherInfo_eq_ok_iff.2 ⟨h, rfl⟩, otherInfo_eq_ok_iff.2 ⟨h', rfl⟩,
      octets_eq_iff h h'⟩
  · intro method method' partyU partyV partyU' partyV' text text' written written' secret secret'
      length_eq counter counter' same
    obtain ⟨h, rfl⟩ := otherInfo_eq_ok_iff.1 written
    obtain ⟨h', rfl⟩ := otherInfo_eq_ok_iff.1 written'
    -- Counter and secret have the same lengths on both sides, so the texts are what differs.
    have texts_eq := (List.append_inj same (by
      simp only [List.length_append, Bytes.length_ofNat, length_eq])).2
    have label_eq := ((octets_eq_iff h h').1 texts_eq).label_eq
    have labels_ne : KeyPair.contentLabel ≠ KeyPair.integrityLabel := by decide
    exact labels_ne label_eq

/-- An octet more about the first party and one less about the second make another text, and so does
another purpose; nothing about a party and no octets about it make the same. -/
theorem otherInfo_eq_iff_same_moved_octet :
    ∃ longer shorter absent empty : KeyInfo,
      longer = ⟨"A", "B", some [1, 2], some [3], 8⟩ ∧ shorter = ⟨"A", "B", some [1], some [2, 3], 8⟩
      ∧ absent = ⟨"A", "B", none, some [3], 8⟩ ∧ empty = ⟨"A", "B", some [], some [3], 8⟩
      ∧ longer.otherInfo ≠ shorter.otherInfo ∧ absent.otherInfo = empty.otherInfo
      ∧ ∃ text text', (content .a128cbcHs256 none none).otherInfo = .ok text
        ∧ (integrity .a128cbcHs256 (some [1]) none).otherInfo = .ok text'
        ∧ Derivation.roundInput [7] text 1 ≠ Derivation.roundInput [8] text' 1 := by
  have fits (octets : Bytes) (short : octets.length ≤ 2) : Fits octets := by unfold Fits; omega
  have label_ascii : asciiBytes "A" = .ok [65] := rfl
  have method_ascii : asciiBytes "B" = .ok [66] := rfl
  have bits_fit : (0 : Int) ≤ 8 ∧ (8 : Int) < 0x100000000 := by decide
  have writable (partyU partyV : Option Bytes) (shortU : (partyU.getD []).length ≤ 2)
      (shortV : (partyV.getD []).length ≤ 2) : (KeyInfo.mk "A" "B" partyU partyV 8).Writable :=
    .of_ascii label_ascii (fits _ (by decide)) method_ascii (fits _ (by decide)) (fits _ shortU)
      (fits _ shortV) bits_fit
  obtain ⟨tells, apart⟩ := otherInfo_eq_iff_same
  refine ⟨_, _, _, _, rfl, rfl, rfl, rfl, ?_, ?_, ?_⟩
  · obtain ⟨text, text', written, written', same_iff⟩ :=
      tells _ _ (writable (some [1, 2]) (some [3]) (by decide) (by decide))
        (writable (some [1]) (some [2, 3]) (by decide) (by decide))
    rw [written, written', ne_eq, Except.ok.injEq, same_iff]
    intro same
    exact absurd same.partyU_eq (by decide)
  · obtain ⟨text, text', written, written', same_iff⟩ :=
      tells _ _ (writable none (some [3]) (by decide) (by decide))
        (writable (some []) (some [3]) (by decide) (by decide))
    rw [written, written', Except.ok.injEq, same_iff]
    exact ⟨rfl, rfl, rfl, rfl, rfl⟩
  · have written := otherInfo_eq_ok_iff.2
      ⟨content_writable .a128cbcHs256 none none Derivation.fits_nil Derivation.fits_nil, rfl⟩
    have written' := otherInfo_eq_ok_iff.2
      ⟨integrity_writable .a128cbcHs256 (some [1]) none (fits [1] (by decide)) Derivation.fits_nil,
        rfl⟩
    exact ⟨_, _, written, written', apart _ _ _ _ _ _ _ _ written written' [7] [8] rfl 1 1⟩

end KeyInfo

end TokenCrypto
