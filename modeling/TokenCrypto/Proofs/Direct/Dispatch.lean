import TokenCrypto.Dispatch
import TokenCrypto.Proofs.Direct.Stages

/-!
# Decrypters for headers

A decrypter is made of a key, or found by a header and a key. A header's key management (alg) is
looked at twice on the way to a plaintext: it is compared with the one name there is before there is
a decrypter, and with the names that the policy accepts before a token is decrypted. Since a policy
accepts that one name and no other, a header that leads to no decrypter has no tokens that could be
decrypted.

* `Key.Sharable`: the keys that decrypters are made of.
* `Direct.exists_create_iff`, `Direct.create_of_not_sharable`: making a decrypter of a key.
* `Direct.checkAlgorithm_eq_ok_iff_direct`: the policy and the one name agree on every header.
* `Dispatch.decrypter_decides`: what comes of a header and a key.
-/

namespace TokenCrypto

/-! ## Keys -/

/-- The keys that decrypters are made of. -/
inductive Key.Sharable : Key → Prop where
  | secret {secret : Secret}
    (sized : secret.bitLength = 128 ∨ secret.bitLength = 256 ∨ secret.bitLength = 512) :
    Sharable (.symmetric secret)

/-- The sizes of key that some method uses. -/
theorem EncryptionMethod.exists_keyBits_iff {bits : Nat} :
    (∃ method ∈ all, method.keyBits = bits) ↔ bits = 128 ∨ bits = 256 ∨ bits = 512 := by
  constructor
  · rintro ⟨m | m, -, rfl⟩
    · cases m <;> decide
    · cases m <;> decide
  · rintro (rfl | rfl | rfl)
    · exact ⟨.gcm .a128gcm, by decide, rfl⟩
    · exact ⟨.gcm .a256gcm, by decide, rfl⟩
    · exact ⟨.composite .a256cbcHs512, by decide, rfl⟩

namespace Direct

variable {key : Key} {policy : Policy} {codecs : Codecs}

theorem exists_create_of_sharable (sharable : key.Sharable) :
    ∃ d, create key policy codecs = .ok d := by
  cases sharable with
  | secret sized =>
    exact ⟨_, create_symmetric _ (EncryptionMethod.exists_keyBits_iff.2 sized) policy codecs⟩

/-- Every other key is of the wrong type, also if it is a secret of another size. -/
theorem create_of_not_sharable (h : ¬ key.Sharable) :
    ∃ why, create key policy codecs = reject why ∧ why.report.category = .keyType := by
  cases key with
  | symmetric secret =>
    have other : ¬ ∃ method ∈ EncryptionMethod.all, method.keyBits = secret.bitLength :=
      fun sized => h (.secret (EncryptionMethod.exists_keyBits_iff.1 sized))
    exact ⟨_, create_symmetric_of_other_size secret other policy codecs, rfl⟩
  | _ => exact ⟨_, rfl, rfl⟩

theorem exists_create_iff : (∃ d, create key policy codecs = .ok d) ↔ key.Sharable :=
  exists_ok_iff exists_create_of_sharable create_of_not_sharable

variable {d : Direct} {header : JweHeader}

/-- The names that a policy accepts and the one name there is agree on every header. -/
theorem checkAlgorithm_eq_ok_iff_direct :
    d.checkAlgorithm header = .ok () ↔ header.algorithm = .string KeyManagement.direct.name := by
  rw [checkAlgorithm_eq_ok_iff]
  constructor
  · rintro ⟨name, accepted, named⟩
    rw [named, (d.policy.mem_algorithmNames_iff name).1 accepted]
  · intro named
    exact ⟨_, (d.policy.mem_algorithmNames_iff _).2 rfl, named⟩

/-- No token of a header with another key management is decrypted. -/
theorem decrypt_of_other_algorithm (other : header.algorithm ≠ .string KeyManagement.direct.name)
    (parts : Parts) (text : Bytes) : d.decrypt header parts ≠ .ok text := by
  intro decrypted
  obtain ⟨_, _, _, _, _, -, checked, -⟩ := decrypt_eq_ok_iff.1 decrypted
  exact other (checkAlgorithm_eq_ok_iff_direct.1 checked)

end Direct

/-! ## Decrypters for headers -/

namespace Dispatch

open TokenCrypto.Direct (create exists_create_iff create_of_not_sharable)

variable {header : JweHeader} {key : Key} {policy : Policy}

theorem decrypter_of_other_algorithm
    (other : header.algorithm ≠ .string KeyManagement.direct.name) (key : Key) (policy : Policy) :
    decrypter header key policy = reject (.unknownKeyManagement header.algorithm.shown) :=
  if_pos other

theorem decrypter_symmetric (named : header.algorithm = .string KeyManagement.direct.name)
    (secret : Secret) (policy : Policy) :
    decrypter header (.symmetric secret) policy = create (.symmetric secret) policy .standard :=
  if_neg (not_not_intro named)

/-- A key that is no secret is refused before a decrypter is made of it, and in other words. -/
theorem decrypter_of_no_secret (named : header.algorithm = .string KeyManagement.direct.name)
    (none : key.secret? = none) (policy : Policy) :
    decrypter header key policy =
      reject (.secretRequired KeyManagement.direct.name key.family) := by
  unfold decrypter
  rw [if_neg (not_not_intro named), none]

theorem decrypter_eq_ok_iff {d : Direct} :
    decrypter header key policy = .ok d ↔
      header.algorithm = .string KeyManagement.direct.name
        ∧ create key policy .standard = .ok d := by
  by_cases named : header.algorithm = .string KeyManagement.direct.name
  · cases found : key.secret? with
    | some secret =>
      obtain rfl := Key.secret?_eq_some_iff.1 found
      rw [decrypter_symmetric named]
      exact ⟨fun made => ⟨named, made⟩, And.right⟩
    | none =>
      have unmade : create key policy .standard = reject (.sharedKeyType key.family) := by
        rw [create, found]
      rw [decrypter_of_no_secret named found, unmade]
      exact ⟨nofun, fun made => nomatch made.2⟩
  · rw [decrypter_of_other_algorithm named]
    exact ⟨nofun, fun made => absurd made.1 named⟩

/-- A header that names the direct use of a key (dir), and a key that is not to be used so. -/
theorem decrypter_of_not_sharable (named : header.algorithm = .string KeyManagement.direct.name)
    (h : ¬ key.Sharable) :
    ∃ why, decrypter header key policy = reject why ∧ why.report.category = .keyType := by
  cases found : key.secret? with
  | some secret =>
    obtain rfl := Key.secret?_eq_some_iff.1 found
    rw [decrypter_symmetric named]
    exact create_of_not_sharable h
  | none => exact ⟨_, decrypter_of_no_secret named found policy, rfl⟩

/-- What comes of any header, key and policy. There is a decrypter for the header exactly if the
header names the direct use of the key and a decrypter can be made of the key, which is so for
secrets of three sizes; the two decrypters have the same outcome on every token. If there is none
for the header, no decrypter made of the key decrypts a token of that header, whatever its codecs
are. A header that names anything else is refused whatever the key is, and otherwise the key is
of the wrong type. -/
theorem decrypter_decides (header : JweHeader) (key : Key) (policy : Policy) :
    ((∃ d, decrypter header key policy = .ok d) ↔
      header.algorithm = .string "dir" ∧ ∃ d, create key policy .standard = .ok d)
    ∧ ((∃ d, create key policy .standard = .ok d) ↔ key.Sharable)
    ∧ (∀ d, decrypter header key policy = .ok d →
      ∃ made, create key policy .standard = .ok made
        ∧ ∀ other parts, d.decrypt other parts = made.decrypt other parts)
    ∧ (∀ why, decrypter header key policy = .error why →
      ∀ codecs made, create key policy codecs = .ok made →
        ∀ parts text, made.decrypt header parts ≠ .ok text)
    ∧ (header.algorithm ≠ .string "dir" →
      ∃ why, decrypter header key policy = reject why
        ∧ why.report.category = .unsupportedAlgorithm
        ∧ why.report.message = "Unsupported JWE algorithm: " ++ header.algorithm.shown)
    ∧ (header.algorithm = .string "dir" → ¬ key.Sharable →
      ∃ why, decrypter header key policy = reject why ∧ why.report.category = .keyType) := by
  refine ⟨?_, exists_create_iff, ?_, ?_, ?_, decrypter_of_not_sharable⟩
  · constructor
    · rintro ⟨d, found⟩
      obtain ⟨named, made⟩ := decrypter_eq_ok_iff.1 found
      exact ⟨named, d, made⟩
    · rintro ⟨named, d, made⟩
      exact ⟨d, decrypter_eq_ok_iff.2 ⟨named, made⟩⟩
  · intro d found
    exact ⟨d, (decrypter_eq_ok_iff.1 found).2, fun _ _ => rfl⟩
  · intro why refused codecs made of_key parts text
    by_cases named : header.algorithm = .string KeyManagement.direct.name
    · -- The key is one that decrypters are made of, so there is one for the header.
      obtain ⟨d, made⟩ := exists_create_iff.2 (exists_create_iff.1 ⟨made, of_key⟩)
      have found : decrypter header key policy = .ok d := decrypter_eq_ok_iff.2 ⟨named, made⟩
      exact nomatch refused.symm.trans found
    · exact Direct.decrypt_of_other_algorithm named parts text
  · intro other
    exact ⟨_, decrypter_of_other_algorithm other key policy, rfl, rfl⟩

/-- A header and a key of sixteen octets lead to a decrypter. With another key management they lead
to none, though one can be made of the key; and a key of twenty-four octets leads to none with
either header. -/
theorem decrypter_decides_other_ways :
    ∃ d made : Direct, ∃ wrapped : JweHeader, wrapped.algorithm = "A128KW"
      ∧ decrypter Direct.Sample.header (.symmetric Direct.Sample.secret) .standard = .ok d
      ∧ create (.symmetric Direct.Sample.secret) .standard .standard = .ok made
      ∧ d.decrypt Direct.Sample.header Direct.Sample.parts =
        made.decrypt Direct.Sample.header Direct.Sample.parts
      ∧ (∀ parts text, made.decrypt wrapped parts ≠ .ok text)
      ∧ ∃ refused mistyped,
        decrypter wrapped (.symmetric ⟨List.replicate 24 0⟩) .standard = reject refused
        ∧ refused.report.category = .unsupportedAlgorithm
        ∧ decrypter Direct.Sample.header (.symmetric ⟨List.replicate 24 0⟩) .standard
          = reject mistyped
        ∧ mistyped.report.category = .keyType := by
  let wrapped : JweHeader := { Direct.Sample.header with algorithm := "A128KW" }
  let long : Key := .symmetric ⟨List.replicate 24 0⟩
  have sized : (Key.symmetric Direct.Sample.secret).Sharable := .secret (.inl rfl)
  have not_sized : ¬ long.Sharable := by
    show ¬ (Key.symmetric ⟨List.replicate 24 0⟩).Sharable
    rintro ⟨sized⟩
    revert sized
    decide
  have other : wrapped.algorithm ≠ .string "dir" := by decide
  obtain ⟨found, makes, same, -⟩ :=
    decrypter_decides Direct.Sample.header (.symmetric Direct.Sample.secret) .standard
  obtain ⟨d, found⟩ := found.2 ⟨rfl, makes.2 sized⟩
  obtain ⟨made, of_key, same⟩ := same d found
  obtain ⟨-, -, -, undecrypted, unsupported, -⟩ :=
    decrypter_decides wrapped (.symmetric Direct.Sample.secret) .standard
  obtain ⟨_, unsupported, -⟩ := unsupported other
  obtain ⟨-, -, -, -, refuses, -⟩ := decrypter_decides wrapped long .standard
  obtain ⟨refused, rejected, category, -⟩ := refuses other
  obtain ⟨-, -, -, -, -, mistypes⟩ := decrypter_decides Direct.Sample.header long .standard
  obtain ⟨mistyped, rejected', category'⟩ := mistypes rfl not_sized
  exact ⟨d, made, wrapped, rfl, found, of_key, same _ _,
    undecrypted _ unsupported .standard made of_key, refused, mistyped, rejected, category,
    rejected', category'⟩

end Dispatch

end TokenCrypto
