import TokenCrypto.Proofs.Derivation.Info

/-!
# The octets of a derived key

A key is what the rounds of hashing give, one digest of counter, secret (Z) and OtherInfo behind the
other, cut to the length asked for. So each octet of it is an octet of one digest, found by
division.

* `Derivation.getElem?_digests`: an octet of the digests, by induction on the rounds.
* `KeyInfo.exists_derived`: a key, octet by octet.
* `KeyInfo.derive_octet_of_digest`: the octets of a key, and when there is none.
* `KeyInfo.no_key_of_long_name`: two sorts of names that there is no key for.
-/

namespace TokenCrypto

namespace Derivation

/-! ## Rounds -/

section

variable (hash : Hash) (secret info : Bytes)

/-- What so many rounds give. -/
def digests (rounds : Nat) : Bytes :=
  (List.range rounds).flatMap fun i => hash.digest (roundInput secret info (i + 1))

/-- A round adds a digest. -/
theorem digests_succ (rounds : Nat) : digests hash secret info (rounds + 1) =
    digests hash secret info rounds ++ hash.digest (roundInput secret info (rounds + 1)) := by
  rw [digests, List.range_succ, List.flatMap_append, List.flatMap_singleton, digests]

theorem length_digests (rounds : Nat) :
    (digests hash secret info rounds).length = rounds * hash.size := by
  induction rounds with
  | zero => rw [Nat.zero_mul]; rfl
  | succ rounds ih =>
    rw [digests_succ, List.length_append, ih, Hash.length_digest, Nat.succ_mul]

theorem getElem?_digests {rounds i : Nat} (h : i < rounds * hash.size) :
    (digests hash secret info rounds)[i]? =
      (hash.digest (roundInput secret info (i / hash.size + 1)))[i % hash.size]? := by
  induction rounds with
  | zero => rw [Nat.zero_mul] at h; omega
  | succ rounds ih =>
    rw [digests_succ]
    rw [Nat.succ_mul] at h
    by_cases earlier : i < rounds * hash.size
    · rw [List.getElem?_append_left (by rwa [length_digests]), ih earlier]
    · -- What is behind the earlier rounds is within the digest of the last one.
      have last : i / hash.size = rounds :=
        Nat.div_eq_of_lt_le (Nat.not_lt.1 earlier) (by rwa [Nat.succ_mul])
      have place : i % hash.size = i - rounds * hash.size := by
        rw [Nat.mod_eq_sub_div_mul, last]
      rw [List.getElem?_append_right (by rw [length_digests]; omega), length_digests, last, place]

theorem getElem?_expand {size i : Nat} (h : i < size) :
    (expand hash secret info size)[i]? =
      (hash.digest (roundInput secret info (i / hash.size + 1)))[i % hash.size]? := by
  have enough := le_digests hash size
  show ((digests hash secret info _).take size)[i]? = _
  rw [List.getElem?_take_of_lt h, getElem?_digests _ _ _ (by omega)]

end

end Derivation

/-! ## Keys -/

namespace KeyInfo

open TokenCrypto.Derivation (Fits)

/-- A key of which the given is told. -/
def derive (info : KeyInfo) (hash : Hash) (secret : Material) : Except Error Bytes :=
  Derivation.derive hash secret info.label info.method (.ofBytes? info.partyU)
    (.ofBytes? info.partyV) info.bits

variable {info : KeyInfo} {hash : Hash} {secret : Material} {bytes : Bytes}

/-- What a derivation comes to. -/
theorem derive_eq (given : secret.bytes? = some bytes) :
    info.derive hash secret =
      if info.bits ≤ 0 ∨ info.bits % 8 ≠ 0 then fail (.derivedBits info.bits)
      else info.otherInfo >>= fun text =>
        .ok (Derivation.expand hash bytes text (info.bits / 8).toNat) :=
  Derivation.derive_eq hash given _ _ _

/-- Names within ASCII can be written, unless a length or the number of bits is beyond its field. -/
theorem otherInfo_of_overflow (label_plain : Ascii.Plain info.label)
    (method_plain : Ascii.Plain info.method) (overflow : ¬ info.Writable) :
    info.otherInfo = fail .fieldOverflow := by
  refine Derivation.otherInfo_of_overflow (asciiBytes_eq_ok_iff.2 ⟨label_plain, rfl⟩)
    (asciiBytes_eq_ok_iff.2 ⟨method_plain, rfl⟩) ?_
  rintro ⟨method_fits, label_fits, partyU_fits, partyV_fits, bits_fit⟩
  exact overflow
    { label_plain, method_plain, label_fits, method_fits, partyU_fits, partyV_fits, bits_fit }

/-- A key has the length that is told of it, and each octet of it is one of a digest, of a round
whose counter fits its field. -/
structure Derived (info : KeyInfo) (hash : Hash) (secret key : Bytes) : Prop where
  length_eq : 8 * (key.length : Int) = info.bits
  octet : ∀ i < key.length, i / hash.size + 1 < 0x100000000
    ∧ key[i]? = (hash.digest (Bytes.ofNat 4 (i / hash.size + 1) ++ secret
        ++ info.octets))[i % hash.size]?

theorem exists_derived (info : KeyInfo) (given : secret.bytes? = some bytes)
    (writable : info.Writable) (whole : ¬ (info.bits ≤ 0 ∨ info.bits % 8 ≠ 0)) :
    ∃ key, info.derive hash secret = .ok key ∧ info.Derived hash bytes key := by
  rw [derive_eq given, if_neg whole, otherInfo_eq_ok_iff.2 ⟨writable, rfl⟩, ok_bind]
  refine ⟨_, rfl, ?_, ?_⟩
  · rw [Derivation.length_expand]
    omega
  · intro i inside
    rw [Derivation.length_expand] at inside
    have := Nat.div_le_self i hash.size
    have := writable.bits_fit
    exact ⟨by omega, Derivation.getElem?_expand hash bytes info.octets inside⟩

/-- The CEK and the CIK of a method, with the octets of each. -/
theorem exists_pair (given : secret.bytes? = some bytes) (method : CompositeMethod)
    (partyU partyV : Option Bytes) (fitsU : Fits (partyU.getD [])) (fitsV : Fits (partyV.getD [])) :
    ∃ pair, KeyPair.deriveFor method.name secret (.ofBytes? partyU) (.ofBytes? partyV) = .ok pair
      ∧ (content method partyU partyV).Derived method.hash bytes pair.content
      ∧ (integrity method partyU partyV).Derived method.hash bytes pair.integrity := by
  obtain ⟨key, derived, key_octets⟩ := exists_derived (content method partyU partyV) given
    (content_writable method partyU partyV fitsU fitsV) method.contentBits_whole
  obtain ⟨key', derived', key_octets'⟩ := exists_derived (integrity method partyU partyV) given
    (integrity_writable method partyU partyV fitsU fitsV) method.integrityBits_whole
  refine ⟨⟨key, key', false⟩, ?_, key_octets, key_octets'⟩
  rw [KeyPair.deriveFor_name]
  show ((content method partyU partyV).derive method.hash secret >>= fun content =>
    (integrity method partyU partyV).derive method.hash secret >>= fun integrity =>
      Except.ok (KeyPair.mk content integrity false)) = _
  rw [derived, ok_bind, derived', ok_bind]

/-- There is no key of which something is told that has no room in its field. -/
theorem derive_of_overflow (given : secret.bytes? = some bytes)
    (label_plain : Ascii.Plain info.label) (method_plain : Ascii.Plain info.method)
    (positive : 0 < info.bits) (whole : info.bits % 8 = 0) (overflow : ¬ info.Writable) :
    info.derive hash secret = fail .fieldOverflow := by
  rw [derive_eq given, if_neg (by omega), otherInfo_of_overflow label_plain method_plain overflow,
    fail_bind]

/-- A key of which only what can be written is told, and whose length is a positive number of whole
octets, has exactly that length, and each octet of it is one of a digest of a counter, the secret
and the text about the key (OtherInfo). A length that is zero or less or no number of whole octets
is a fault that names it; any other that has no room in its field is a fault, and so is a label, a
method or the information about a party (epu or epv) that has none. Each composite method has its
two keys, CEK and CIK, of its own sizes; the others have none. -/
theorem derive_octet_of_digest (hash : Hash) (given : secret.bytes? = some bytes)
    (info : KeyInfo) :
    (info.Writable → 0 < info.bits → info.bits % 8 = 0 →
      ∃ key, info.derive hash secret = .ok key ∧ info.Derived hash bytes key)
    ∧ (info.bits ≤ 0 ∨ info.bits % 8 ≠ 0 →
      info.derive hash secret = fail (.derivedBits info.bits)
      ∧ (Fault.derivedBits info.bits).message? =
        some ("Key bit length must be a positive multiple of 8, got " ++ toString info.bits))
    ∧ (Ascii.Plain info.label → Ascii.Plain info.method → 0 < info.bits → info.bits % 8 = 0 →
      ¬ info.Writable → info.derive hash secret = fail .fieldOverflow)
    ∧ (Fits (info.partyU.getD []) → Fits (info.partyV.getD []) → ∀ method : CompositeMethod,
      ∃ pair, KeyPair.deriveFor method.name secret (.ofBytes? info.partyU) (.ofBytes? info.partyV)
          = .ok pair
        ∧ 8 * pair.content.length = method.contentBits
        ∧ 8 * pair.integrity.length = method.integrityBits)
    ∧ ∀ method : GcmMethod,
      KeyPair.deriveFor method.name secret (.ofBytes? info.partyU) (.ofBytes? info.partyV)
          = reject (.notDerived method.name)
        ∧ (Rejection.notDerived method.name).report.category = .unsupportedAlgorithm := by
  refine ⟨?_, ?_, ?_, ?_, ?_⟩
  · intro writable positive whole
    exact exists_derived info given writable (by omega)
  · intro odd
    exact ⟨by rw [derive_eq given, if_pos odd], rfl⟩
  · exact derive_of_overflow given
  · intro fitsU fitsV method
    obtain ⟨pair, derived, content_octets, integrity_octets⟩ :=
      exists_pair given method info.partyU info.partyV fitsU fitsV
    exact ⟨pair, derived, Int.ofNat.inj content_octets.length_eq,
      Int.ofNat.inj integrity_octets.length_eq⟩
  · intro method
    exact ⟨KeyPair.deriveFor_gcm method secret _ _, rfl⟩

/-- A key of thirty-three octets takes its last one from the second round. One of twelve bits is no
key, and more bits than four octets can tell are not written. -/
theorem derive_octet_of_digest_second_round :
    ∃ info : KeyInfo, info = ⟨"A", "B", none, some [], 264⟩
      ∧ (∃ key, info.derive .sha256 (.buffer [7]) = .ok key ∧ key.length = 33
        ∧ key[32]? = (Hash.sha256.digest (Bytes.ofNat 4 2 ++ [7] ++ info.octets))[0]?)
      ∧ { info with bits := 12 }.derive .sha256 (.buffer [7]) = fail (.derivedBits 12)
      ∧ { info with bits := 0x100000000 }.derive .sha256 (.buffer [7]) = fail .fieldOverflow
      ∧ ∃ pair, KeyPair.deriveFor "A256CBC-HS512" (.buffer [7]) (.ofBytes? none)
          (.ofBytes? (some [])) = .ok pair
        ∧ 8 * pair.content.length = 256 ∧ 8 * pair.integrity.length = 512 := by
  have given : (Material.buffer [7]).bytes? = some [7] := rfl
  have label_ascii : asciiBytes "A" = .ok [65] := rfl
  have method_ascii : asciiBytes "B" = .ok [66] := rfl
  have fits (octets : Bytes) (short : octets.length ≤ 1) : Fits octets := by unfold Fits; omega
  have bits_fit : (0 : Int) ≤ 264 ∧ (264 : Int) < 0x100000000 := by decide
  have writable : (KeyInfo.mk "A" "B" none (some []) 264).Writable :=
    .of_ascii label_ascii (fits _ (by decide)) method_ascii (fits _ (by decide))
      (fits _ (by decide)) (fits _ (by decide)) bits_fit
  have too_long : ¬ (KeyInfo.mk "A" "B" none (some []) 0x100000000).Writable :=
    fun h => absurd h.bits_fit.2 (by decide)
  refine ⟨_, rfl, ?_, ?_, ?_, ?_⟩
  · obtain ⟨key, derived, length_eq, octet⟩ :=
      (derive_octet_of_digest .sha256 given _).1 writable (by decide) (by decide)
    have length_eq : key.length = 33 := by
      have : 8 * (key.length : Int) = 264 := length_eq
      omega
    exact ⟨key, derived, length_eq, (octet 32 (by omega)).2⟩
  · exact ((derive_octet_of_digest .sha256 given
      ⟨"A", "B", none, some [], 12⟩).2.1 (by decide)).1
  · exact (derive_octet_of_digest .sha256 given
      ⟨"A", "B", none, some [], 0x100000000⟩).2.2.1 writable.label_plain writable.method_plain
        (by decide) (by decide) too_long
  · exact (derive_octet_of_digest .sha256 given
      ⟨"A", "B", none, some [], 264⟩).2.2.2.1 (fits _ (by decide)) (fits _ (by decide))
        .a256cbcHs512

/-- Nothing is derived for a label, nor for a method, of too great a length. -/
theorem derive_of_long_name {name : String} (plain : Ascii.Plain name)
    (long : ¬ Fits (name.toList.map Ascii.octet)) :
    (KeyInfo.mk name "B" none none 264).derive .sha256 (.buffer [7]) = fail .fieldOverflow
    ∧ (KeyInfo.mk "A" name none none 264).derive .sha256 (.buffer [7]) = fail .fieldOverflow := by
  have given : (Material.buffer [7]).bytes? = some [7] := rfl
  have ascii (text : String) (octets : Bytes) (written : asciiBytes text = .ok octets) :
      Ascii.Plain text := (asciiBytes_eq_ok_iff.1 written).1
  have positive : (0 : Int) < 264 := by decide
  have whole : (264 : Int) % 8 = 0 := by decide
  constructor
  · exact derive_of_overflow given plain (ascii "B" [66] rfl) positive whole
      fun writable => long writable.label_fits
  · exact derive_of_overflow given (ascii "A" [65] rfl) plain positive whole
      fun writable => long writable.method_fits

/-- There is no key for a label, nor for a method, of 2³² letters, and no pair of keys for a method
that encrypts and authenticates with one key. -/
theorem no_key_of_long_name :
    (∃ name, name = String.ofList (List.replicate 0x100000000 'A') ∧ Ascii.Plain name
      ∧ (KeyInfo.mk name "B" none none 264).derive .sha256 (.buffer [7]) = fail .fieldOverflow
      ∧ (KeyInfo.mk "A" name none none 264).derive .sha256 (.buffer [7]) = fail .fieldOverflow)
    ∧ KeyPair.deriveFor "A128GCM" (.buffer [7]) (.ofBytes? none) (.ofBytes? none)
      = reject (.notDerived "A128GCM")
    ∧ (Rejection.notDerived "A128GCM").report.category = .unsupportedAlgorithm := by
  have plain : Ascii.Plain (String.ofList (List.replicate 0x100000000 'A')) :=
    .ofList_replicate (by decide) _
  have long : ¬ Fits ((String.ofList (List.replicate 0x100000000 'A')).toList.map Ascii.octet) := by
    rw [Fits, List.length_map, String.toList_ofList, List.length_replicate]
    decide
  exact ⟨⟨_, rfl, plain, derive_of_long_name plain long⟩, rfl, rfl⟩

end KeyInfo

end TokenCrypto
