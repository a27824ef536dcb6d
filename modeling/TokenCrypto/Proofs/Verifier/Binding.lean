import TokenCrypto.Dispatch

/-!
# Which keys go with which algorithms

An algorithm goes with the keys of one shape: secrets of so many bits, public RSA keys, public keys
on one curve. A verifier is made of exactly those, and it is made in one way; any other key is
refused, and so is every name that no algorithm goes by.

* `SignatureAlgorithm.Suits`: the keys that go with an algorithm.
* `Verifier.bind_of_suits`, `Verifier.bind_of_not_suits`: binding a key.
* `Dispatch.verifier_decides`: what comes of a header and a key.
-/

namespace TokenCrypto

/-! ## The keys of an algorithm -/

namespace SignatureAlgorithm

/-- The keys that go with an algorithm. -/
inductive Suits : SignatureAlgorithm → Key → Prop
  | hs256 {secret : Secret} (h : 256 ≤ secret.bitLength) : Suits (hmac .sha256) (.symmetric secret)
  | hs384 {secret : Secret} (h : 384 ≤ secret.bitLength) : Suits (hmac .sha384) (.symmetric secret)
  | hs512 {secret : Secret} (h : 512 ≤ secret.bitLength) : Suits (hmac .sha512) (.symmetric secret)
  | pkcs1 (hash : Hash) (key : Rsa.PublicKey) : Suits (pkcs1 hash) (.rsaPublic key)
  | pss (hash : Hash) (key : Rsa.PublicKey) : Suits (pss hash) (.rsaPublic key)
  | es256 {key : Ecdsa.PublicKey} (h : key.curve.name = "secp256r1") :
    Suits (ecdsa .sha256) (.ecPublic key)
  | es384 {key : Ecdsa.PublicKey} (h : key.curve.name = "secp384r1") :
    Suits (ecdsa .sha384) (.ecPublic key)
  | es512 {key : Ecdsa.PublicKey} (h : key.curve.name = "secp521r1") :
    Suits (ecdsa .sha512) (.ecPublic key)

theorem Suits.of_bits {hash : Hash} {secret : Secret}
    (long : leastSecretBits hash ≤ secret.bitLength) : Suits (hmac hash) (.symmetric secret) := by
  cases hash with
  | sha256 => exact .hs256 long
  | sha384 => exact .hs384 long
  | sha512 => exact .hs512 long

theorem Suits.of_curve {hash : Hash} {key : Ecdsa.PublicKey} (on : key.curve = curveFor hash) :
    Suits (ecdsa hash) (.ecPublic key) := by
  cases hash with
  | sha256 => exact .es256 (congrArg Curve.name on)
  | sha384 => exact .es384 (congrArg Curve.name on)
  | sha512 => exact .es512 (congrArg Curve.name on)

/-- The category in which a key is refused that does not go with an algorithm. Where a secret is
asked for, a secret can only be too short; any other key is of the wrong type. -/
def refusal (a : SignatureAlgorithm) (key : Key) : Category :=
  if a.family = .hmac ∧ key.family = .symmetric then .keyLength else .keyType

/-- The texts by which an algorithm is found: its name alone. -/
theorem bind_ofName?_eq_some_iff {text : Json.Text} {a : SignatureAlgorithm} :
    text.string?.bind ofName? = some a ↔ text = .string a.name :=
  Json.Text.bind_string?_eq_some_iff ofName?_name name_of_ofName?

end SignatureAlgorithm

/-! ## Binding -/

namespace Verifier

variable {a : SignatureAlgorithm} {key : Key}

/-- A key that goes with an algorithm is bound to it. -/
theorem bind_of_suits (h : a.Suits key) :
    ∃ v, bind a key = .ok v ∧ v.algorithm = a ∧ v.key = key := by
  cases h with
  | hs256 long => exact ⟨_, if_pos long, rfl, rfl⟩
  | hs384 long => exact ⟨_, if_pos long, rfl, rfl⟩
  | hs512 long => exact ⟨_, if_pos long, rfl, rfl⟩
  | pkcs1 hash key => exact ⟨_, rfl, rfl, rfl⟩
  | pss hash key => exact ⟨_, rfl, rfl, rfl⟩
  | es256 on => exact ⟨_, if_pos (Curve.eq_known_of_name on), rfl, rfl⟩
  | es384 on => exact ⟨_, if_pos (Curve.eq_known_of_name on), rfl, rfl⟩
  | es512 on => exact ⟨_, if_pos (Curve.eq_known_of_name on), rfl, rfl⟩

/-- Every other key is refused. -/
theorem bind_of_not_suits (h : ¬ a.Suits key) :
    ∃ why, bind a key = reject why ∧ why.report.category = a.refusal key := by
  cases a with
  | hmac hash =>
    cases key with
    | symmetric secret =>
      have short : ¬ SignatureAlgorithm.leastSecretBits hash ≤ secret.bitLength :=
        fun long => h (.of_bits long)
      exact ⟨_, if_neg short, rfl⟩
    | _ => exact ⟨_, rfl, rfl⟩
  | pkcs1 hash =>
    cases key with
    | rsaPublic key => exact absurd (.pkcs1 hash key) h
    | _ => exact ⟨_, rfl, rfl⟩
  | pss hash =>
    cases key with
    | rsaPublic key => exact absurd (.pss hash key) h
    | _ => exact ⟨_, rfl, rfl⟩
  | ecdsa hash =>
    cases key with
    | ecPublic key =>
      have off : ¬ key.curve = SignatureAlgorithm.curveFor hash := fun on => h (.of_curve on)
      exact ⟨_, if_neg off, rfl⟩
    | _ => exact ⟨_, rfl, rfl⟩

theorem exists_bind_iff : (∃ v, bind a key = .ok v) ↔ a.Suits key := by
  refine exists_ok_iff ?_ bind_of_not_suits
  intro suits
  obtain ⟨v, bound, -⟩ := bind_of_suits suits
  exact ⟨v, bound⟩

/-- A verifier is bound to the algorithm and the key that it was asked for. -/
theorem bound_of_bind {v : Verifier} (bound : bind a key = .ok v) :
    v.algorithm = a ∧ v.key = key := by
  obtain ⟨w, bound', of_w⟩ := bind_of_suits (exists_bind_iff.1 ⟨v, bound⟩)
  obtain rfl : w = v := Except.ok.inj (bound'.symm.trans bound)
  exact of_w

/-- A family binds its own algorithms, and no other. -/
theorem bindWithin_name (family : SignatureFamily) (a : SignatureAlgorithm) (key : Key) :
    bindWithin family a.name key =
      if a.family = family then bind a key else reject (.unknownSignature a.name) := by
  rw [bindWithin, SignatureAlgorithm.ofName?_name]

theorem bindWithin_of_unknown (family : SignatureFamily) {name : String}
    (unknown : ∀ a : SignatureAlgorithm, a.name ≠ name) (key : Key) :
    bindWithin family name key = reject (.unknownSignature name) := by
  unfold bindWithin
  cases found : SignatureAlgorithm.ofName? name with
  | some a => exact absurd (SignatureAlgorithm.name_of_ofName? found) (unknown a)
  | none => rfl

end Verifier

/-! ## Verifiers for headers -/

theorem JwsHeader.create_of_text {algorithm : Json.Text} (given : algorithm ≠ .string "") :
    create (.text algorithm) = .ok ⟨algorithm⟩ := by
  rw [create, nonemptyText, if_neg given]
  rfl

namespace Dispatch

variable {header : JwsHeader}

theorem verifier_of_name {a : SignatureAlgorithm} (named : header.algorithm = .string a.name)
    (key : Key) : verifier header key = Verifier.bind a key := by
  unfold verifier
  rw [SignatureAlgorithm.bind_ofName?_eq_some_iff.2 named]

theorem verifier_of_unknown
    (unknown : ∀ a : SignatureAlgorithm, header.algorithm ≠ .string a.name) (key : Key) :
    verifier header key = reject (.unknownSignature header.algorithm.shown) := by
  unfold verifier
  split
  · next a found => exact absurd (SignatureAlgorithm.bind_ofName?_eq_some_iff.1 found) (unknown a)
  · rfl

/-- What comes of a header with any algorithm, and any key. A name that is none of the twelve is
refused whatever the key is, and by each family. Otherwise there is a verifier exactly if the key
goes with the algorithm, and it is bound to the two; the families agree with that, and the
algorithm's own is the only one that gives a verifier. -/
theorem verifier_decides {algorithm : Json.Text} (given : algorithm ≠ .string "") (key : Key) :
    ∃ header, JwsHeader.create (.text algorithm) = .ok header
    ∧ ((∀ a : SignatureAlgorithm, algorithm ≠ .string a.name) →
      (∃ why, verifier header key = reject why ∧ why.report.category = .unsupportedAlgorithm
        ∧ why.report.message = "Unsupported JWS algorithm: " ++ algorithm.shown)
      ∧ ∀ name family, algorithm = .string name →
        Verifier.bindWithin family name key = verifier header key)
    ∧ ∀ a : SignatureAlgorithm, algorithm = .string a.name →
      ((∃ v, verifier header key = .ok v) ↔ a.Suits key)
      ∧ (∀ v, verifier header key = .ok v →
        v.algorithm = a ∧ v.supported = [a.name] ∧ v.key = key)
      ∧ (¬ a.Suits key → ∃ why, verifier header key = reject why
        ∧ why.report.category = a.refusal key)
      ∧ ∀ family, Verifier.bindWithin family a.name key =
        if a.family = family then verifier header key else reject (.unknownSignature a.name) := by
  refine ⟨⟨algorithm⟩, JwsHeader.create_of_text given, ?_, ?_⟩
  · intro unknown
    rw [verifier_of_unknown unknown]
    refine ⟨⟨_, rfl, rfl, rfl⟩, ?_⟩
    rintro name family rfl
    exact Verifier.bindWithin_of_unknown family (fun a same => unknown a (same ▸ rfl)) key
  · intro a named
    rw [verifier_of_name named]
    refine ⟨Verifier.exists_bind_iff, ?_, Verifier.bind_of_not_suits, ?_⟩
    · intro v bound
      obtain ⟨of_algorithm, of_key⟩ := Verifier.bound_of_bind bound
      exact ⟨of_algorithm, by rw [Verifier.supported, of_algorithm], of_key⟩
    · exact fun family => Verifier.bindWithin_name family a key

/-- A curve of the right size is not yet the right curve. -/
theorem verifier_decides_other_curve :
    ∃ curve : OtherCurve, curve.name = "brainpoolP384r1" ∧ curve.keyBits = 384
      ∧ ∃ header why, JwsHeader.create (.text "ES384") = .ok header
        ∧ verifier header (.ecPublic ⟨.other curve, 1, 2⟩) = reject why
        ∧ why.report.category = .keyType := by
  refine ⟨⟨"brainpoolP384r1", 384, fun known => by cases known <;> decide⟩, rfl, rfl, ?_⟩
  have given : Json.Text.string "ES384" ≠ .string "" := by decide
  obtain ⟨header, created, -, decided⟩ := verifier_decides given (.ecPublic ⟨.other _, 1, 2⟩)
  have other : ¬ SignatureAlgorithm.Suits (.ecdsa .sha384) (.ecPublic ⟨.other
      ⟨"brainpoolP384r1", 384, fun known => by cases known <;> decide⟩, 1, 2⟩) := by
    rintro ⟨⟩
    contradiction
  obtain ⟨-, -, refused, -⟩ := decided (.ecdsa .sha384) rfl
  obtain ⟨why, rejected, category⟩ := refused other
  exact ⟨header, why, created, rejected, category⟩

end Dispatch

end TokenCrypto
