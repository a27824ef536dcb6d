import TokenCrypto.Proofs.Deflate.Bound
import TokenCrypto.Proofs.Direct.RoundTrip
import TokenCrypto.Proofs.Policy

/-!
# What a policy lets through

Neither direction gives a result for a header that the policy does not admit: the checks come before
anything else in both, and the codec is looked up before a plaintext is compressed and before it is
decompressed. Among the policies that differ in the bound alone, a greater bound keeps what a lesser
one lets through, unless it is so great that no size is left for one octet more.

* `Direct.only_admitted`: what is encrypted or decrypted is admitted, and no longer than the bound.
* `Direct.decrypt_of_greater_bound`: what becomes of a token when the bound is raised.
-/

namespace TokenCrypto

/-- What a policy is asked to admit: the header names a key management (alg), a method (enc) and, if
any, a compression (zip) that were asked for, and the key is a secret of the method's size. -/
structure PolicyRequest.Admits (request : PolicyRequest) (key : Key) (header : JweHeader) :
    Prop where
  algorithm : header.algorithm = .string "dir" ∧ "dir" ∈ request.names .algorithms
  method : ∃ method secret, header.method = .string (EncryptionMethod.name method)
    ∧ method.name ∈ request.names .methods ∧ key = .symmetric secret
    ∧ secret.bitLength = method.keyBits
  compression : header.compression = none
    ∨ ∃ name ∈ request.names .compression, header.compression = some (.string name)

namespace Direct

variable {d : Direct} {header : JweHeader} {request : PolicyRequest} {policy : Policy} {key : Key}

/-! ## Admission -/

/-- The checks and the look-up of the codec admit no more than was asked for. -/
theorem admits_of_checks (asked : Policy.create request = .ok policy) {codecs : Codecs}
    (made : create key policy codecs = .ok d) {method : EncryptionMethod}
    {codec : Option (String × Codec)} (checked : d.checkAlgorithm header = .ok ())
    (selected : d.selectMethod header = .ok method) (found : d.codecFor header = .ok codec) :
    request.Admits key header := by
  obtain ⟨secret, rfl, -⟩ := create_eq_ok_iff.1 made
  have accepted (part : PolicyPart) (name : String) := (Policy.mem_names_iff asked part name).1
  constructor
  · obtain ⟨name, known, named⟩ := checkAlgorithm_eq_ok_iff.1 checked
    obtain rfl := (Policy.mem_algorithmNames_iff d.policy name).1 known
    exact ⟨named, accepted .algorithms _ known⟩
  · obtain ⟨named, known, sized⟩ := selectMethod_eq_ok_iff.1 selected
    exact ⟨method, d.key, named, accepted .methods _ known, secret, sized.symm⟩
  · rcases codecFor_eq_ok_iff.1 found with ⟨unnamed, -⟩ | ⟨name, -, named, -, known, -⟩
    · exact .inl unnamed
    · exact .inr ⟨name, accepted .compression _ known, named⟩

/-- Decompressing has found a codec and, if one is named, has inflated. -/
theorem decompress_standard_eq_ok_iff (standard : d.codecs = Codecs.standard) {bytes text : Bytes}
    (named : header.compression ≠ none) :
    d.decompress header bytes = .ok text ↔
      d.codecFor header = .ok (some ("DEF", Codec.deflate))
        ∧ Deflate.decompress bytes d.policy.limit = .ok text := by
  constructor
  · intro inflated
    obtain ⟨codec, found, -⟩ := bind_eq_ok_iff.1 inflated
    obtain ⟨name, present⟩ := Option.ne_none_iff_exists'.1 named
    obtain ⟨-, rfl⟩ := codecFor_standard standard present found
    refine ⟨found, ?_⟩
    rw [decompress_of_deflate found] at inflated
    cases out : Deflate.decompress bytes d.policy.limit with
    | error why =>
      rw [out] at inflated
      cases inflated
    | ok other =>
      rw [out] at inflated
      obtain rfl := Except.ok.inj inflated
      rfl
  · rintro ⟨found, inflated⟩
    rw [decompress_of_deflate found, inflated]
    rfl

/-- Whatever is decrypted or encrypted is admitted, and what is decrypted of a compressed plaintext
is no longer than the bound. -/
theorem only_admitted (asked : Policy.create request = .ok policy)
    (made : create key policy Codecs.standard = .ok d) (header : JweHeader) :
    (∀ parts text, d.decrypt header parts = .ok text →
      request.Admits key header
        ∧ (header.compression ≠ none → (text.length : Int) ≤ request.bound))
    ∧ ∀ plaintext source parts, d.encrypt header plaintext source = .ok parts →
      request.Admits key header := by
  constructor
  · intro parts text decrypted
    obtain ⟨iv, ciphertext, tag, method, bytes, -, checked, selected, -, inflated⟩ :=
      decrypt_eq_ok_iff.1 decrypted
    obtain ⟨codec, found, -⟩ := bind_eq_ok_iff.1 inflated
    refine ⟨admits_of_checks asked made checked selected found, ?_⟩
    intro named
    obtain ⟨-, rfl, standard⟩ := create_eq_ok_iff.1 made
    have out := ((decompress_standard_eq_ok_iff standard named).1 inflated).2
    rw [← Policy.limit_of_create asked]
    exact (Deflate.holds_of_decompress (Int.natCast_nonneg _) out).2
  · intro plaintext source parts encrypted
    obtain ⟨text, octets, -⟩ := bind_eq_ok_iff.1 encrypted
    obtain rfl := Material.fixedBytes_eq_ok_iff.1 octets
    obtain ⟨checked, method, bytes, -, -, -, selected, compressed, -⟩ :=
      encrypt_eq_ok_iff.1 encrypted
    obtain ⟨codec, found, -⟩ := bind_eq_ok_iff.1 compressed
    exact admits_of_checks asked made checked selected found

/-- Under a policy of one method and a bound of one octet, a text of one octet. -/
theorem only_admitted_one_octet :
    ∃ request policy d,
      request = { methods := some ["A128GCM"], limit := some 1 }
      ∧ Policy.create request = .ok policy
      ∧ create (.symmetric Sample.secret) policy Codecs.standard = .ok d
      ∧ d.decrypt Sample.header Sample.parts = .ok [65]
      ∧ request.Admits (.symmetric Sample.secret) Sample.header
      ∧ (([65] : Bytes).length : Int) ≤ request.bound := by
  let request : PolicyRequest := { methods := some ["A128GCM"], limit := some 1 }
  let policy : Policy :=
    ⟨[.direct], [.gcm .a128gcm], [.deflate], 1, by decide, by decide, by decide⟩
  have asked : Policy.create request = .ok policy := rfl
  have made := Sample.create_direct policy Codecs.standard
  have decrypted : (Sample.direct policy Codecs.standard).decrypt Sample.header Sample.parts
      = .ok [65] := by
    rw [Sample.decrypt_direct (by decide)]
    decide +kernel
  obtain ⟨admitted, short⟩ := (only_admitted asked made Sample.header).1 _ _ decrypted
  exact ⟨request, policy, _, rfl, asked, made, decrypted, admitted, short nofun⟩

/-! ## A greater bound -/

/-- The same key and codecs under another bound. -/
def withLimit (d : Direct) (limit : Nat) (pos : 0 < limit) : Direct :=
  { d with policy := d.policy.withLimit limit pos }

/-- No stage before the inflating looks at the bound. -/
theorem decrypt_withLimit_eq {limit : Nat} (pos : 0 < limit) {parts : Parts} {text : Bytes}
    (h : d.decrypt header parts = .ok text) :
    ∃ bytes, d.decompress header bytes = .ok text
      ∧ (d.withLimit limit pos).decrypt header parts
          = (d.withLimit limit pos).decompress header bytes := by
  obtain ⟨iv, ciphertext, tag, method, bytes, given, checked, selected, opened, inflated⟩ :=
    decrypt_eq_ok_iff.1 h
  refine ⟨bytes, inflated, ?_⟩
  have checked' : (d.withLimit limit pos).checkAlgorithm header = .ok () := checked
  have selected' : (d.withLimit limit pos).selectMethod header = .ok method := selected
  have opened' : (d.withLimit limit pos).authenticate header method "" iv ciphertext tag
      = .ok bytes := opened
  rw [decrypt_eq checked' selected' given, opened', ok_bind]

theorem decrypt_withLimit (standard : d.codecs = Codecs.standard) {limit : Nat} (pos : 0 < limit)
    (le : d.policy.limit ≤ limit) {parts : Parts} {text : Bytes}
    (h : d.decrypt header parts = .ok text) :
    (d.withLimit limit pos).decrypt header parts =
      if header.compression = none ∨ limit ≤ 0x7ffffffffffffffe then .ok text
      else reject (.notDecompressed "DEF" (.inflate .boundOutOfRange)) := by
  obtain ⟨bytes, inflated, outcome⟩ := decrypt_withLimit_eq pos h
  rw [outcome]
  by_cases unnamed : header.compression = none
  · rw [decompress_of_none unnamed] at inflated
    rw [decompress_of_none unnamed, inflated, if_pos (.inl unnamed)]
  · obtain ⟨found, out⟩ := (decompress_standard_eq_ok_iff standard unnamed).1 inflated
    have found' : (d.withLimit limit pos).codecFor header = .ok (some ("DEF", Codec.deflate)) :=
      found
    have limit_eq : Deflate.sizeLimit = 0x8000000000000000 := rfl
    rw [decompress_of_deflate found']
    show (Deflate.decompress bytes limit).mapError _ = _
    by_cases within : limit ≤ 0x7ffffffffffffffe
    · obtain ⟨holds, short⟩ := Deflate.holds_of_decompress (Int.natCast_nonneg _) out
      have out' : Deflate.decompress bytes limit = .ok text :=
        (Deflate.decompress_eq_ok_iff (Int.natCast_nonneg _) (by omega)).2 ⟨holds, by omega⟩
      rw [out', if_pos (.inr within)]
      rfl
    · have refused : ¬ (header.compression = none ∨ limit ≤ 0x7ffffffffffffffe) := by
        rintro (absent | fits)
        · exact unnamed absent
        · exact within fits
      rw [Deflate.decompress_of_out_of_range (by omega), if_neg refused]
      rfl

theorem eq_withLimit_of_create {limit : Nat} {pos : 0 < limit} {codecs : Codecs} {d' : Direct}
    (made : create key policy codecs = .ok d)
    (made' : create key (policy.withLimit limit pos) codecs = .ok d') :
    d' = d.withLimit limit pos := by
  obtain ⟨rfl, rfl, rfl⟩ := create_eq_ok_iff.1 made
  obtain ⟨same_key, same_policy, same_codecs⟩ := create_eq_ok_iff.1 made'
  have shared : d.key = d'.key := Key.symmetric.inj same_key
  cases d'
  subst shared same_policy same_codecs
  rfl

/-- Of two policies that differ in the bound, the one with the greater bound lets the same
plaintexts through, as long as there is a size for one octet more than the bound; beyond that it
lets through none that was compressed. -/
theorem decrypt_of_greater_bound {least greatest : Int} (le : least ≤ greatest) {wider : Policy}
    (asked : Policy.create { request with limit := some least } = .ok policy)
    (asked' : Policy.create { request with limit := some greatest } = .ok wider) {d' : Direct}
    (made : create key policy Codecs.standard = .ok d)
    (made' : create key wider Codecs.standard = .ok d') {parts : Parts} {text : Bytes}
    (decrypted : d.decrypt header parts = .ok text) :
    d'.decrypt header parts =
      if header.compression = none ∨ greatest ≤ 0x7ffffffffffffffe then .ok text
      else reject (.notDecompressed "DEF" (.inflate .boundOutOfRange)) := by
  have least_eq : (policy.limit : Int) = least := Policy.limit_of_create asked
  have greatest_eq : (wider.limit : Int) = greatest := Policy.limit_of_create asked'
  rw [Policy.eq_withLimit_of_create asked asked'] at made'
  rw [eq_withLimit_of_create made made']
  obtain ⟨-, rfl, standard⟩ := create_eq_ok_iff.1 made
  have within_iff : greatest ≤ 0x7ffffffffffffffe ↔ wider.limit ≤ 0x7ffffffffffffffe := by omega
  simp only [within_iff]
  exact decrypt_withLimit standard wider.limit_pos (by omega) decrypted

/-- A text of one octet under the bound of one octet and under the usual one. -/
theorem decrypt_of_greater_bound_usual :
    ∃ policy wider d d',
      Policy.create { limit := some 1 } = .ok policy
      ∧ Policy.create { limit := some Policy.usualLimit } = .ok wider
      ∧ create (.symmetric Sample.secret) policy Codecs.standard = .ok d
      ∧ create (.symmetric Sample.secret) wider Codecs.standard = .ok d'
      ∧ d.decrypt Sample.header Sample.parts = .ok [65]
      ∧ d'.decrypt Sample.header Sample.parts = .ok [65] := by
  let request : PolicyRequest := {}
  let policy : Policy := Policy.standard.withLimit 1 (by decide)
  have le : (1 : Int) ≤ Policy.usualLimit := by decide
  have asked : Policy.create { request with limit := some 1 } = .ok policy := rfl
  have asked' : Policy.create { request with limit := some Policy.usualLimit } = .ok .standard :=
    rfl
  have made := Sample.create_direct policy Codecs.standard
  have made' := Sample.create_direct .standard Codecs.standard
  have decrypted : (Sample.direct policy Codecs.standard).decrypt Sample.header Sample.parts
      = .ok [65] := by
    rw [Sample.decrypt_direct (by decide)]
    decide +kernel
  have wider := decrypt_of_greater_bound le asked asked' made made' decrypted
  rw [if_pos (.inr (by decide))] at wider
  exact ⟨policy, .standard, _, _, asked, asked', made, made', decrypted, wider⟩

/-- The same text under the usual bound and under the greatest number of 64 bits with a sign, which
leaves no size for one octet more. -/
theorem greater_bound_refused :
    ∃ policy wider d d', (Policy.usualLimit : Int) ≤ 0x7fffffffffffffff
      ∧ Policy.create { limit := some Policy.usualLimit } = .ok policy
      ∧ Policy.create { limit := some 0x7fffffffffffffff } = .ok wider
      ∧ create (.symmetric Sample.secret) policy Codecs.standard = .ok d
      ∧ create (.symmetric Sample.secret) wider Codecs.standard = .ok d'
      ∧ d.decrypt Sample.header Sample.parts = .ok [65]
      ∧ d'.decrypt Sample.header Sample.parts
          = reject (.notDecompressed "DEF" (.inflate .boundOutOfRange)) := by
  let wider : Policy := Policy.standard.withLimit 0x7fffffffffffffff (by decide)
  have asked : Policy.create { limit := some Policy.usualLimit } = .ok .standard := rfl
  have asked' : Policy.create { limit := some 0x7fffffffffffffff } = .ok wider := rfl
  have decrypted : (Sample.direct .standard Codecs.standard).decrypt Sample.header Sample.parts
      = .ok [65] := by
    rw [Sample.decrypt_direct (by decide)]
    decide +kernel
  have refused : (Sample.direct wider Codecs.standard).decrypt Sample.header Sample.parts
      = reject (.notDecompressed "DEF" (.inflate .boundOutOfRange)) := by
    rw [Sample.decrypt_direct (by decide)]
    decide +kernel
  exact ⟨.standard, wider, _, _, by decide, asked, asked', Sample.create_direct _ _,
    Sample.create_direct _ _, decrypted, refused⟩

end Direct

end TokenCrypto
