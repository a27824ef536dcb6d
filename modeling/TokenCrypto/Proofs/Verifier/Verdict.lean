import TokenCrypto.Proofs.Verifier.Binding

/-!
# The verdict on a signature

A verifier says of every signature whether it was made for a message, with one exception: a modulus
that has no room for a digest cannot be asked. Of secrets the verdict is that the signature is the
one tag of the message, and of elliptic curves it is negative wherever the signature is not two
numbers in range.

* `Verifier.Cramped`: the verifiers that cannot be asked.
* `Verifier.exists_check_iff`: all others have a verdict.
* `Verifier.verify_answers_iff`: what a verifier says of octets, whatever the header is.
-/

namespace TokenCrypto.Verifier

/-- A verifier of the probabilistic RSA scheme whose modulus has no room for a digest and the two
octets around it. -/
inductive Cramped : Verifier → Prop
  | pss {hash : Hash} {key : Rsa.PublicKey} (h : key.size < hash.size + 2) : Cramped (pss hash key)

theorem hasRoom_iff {hash : Hash} {key : Rsa.PublicKey} :
    Rsa.Pss.hasRoom key hash = true ↔ ¬ Cramped (pss hash key) := by
  simp only [Rsa.Pss.hasRoom, decide_eq_true_iff]
  constructor
  · rintro room ⟨small⟩
    omega
  · exact fun h => Nat.not_lt.1 fun small => h (.pss small)

/-! ## Verdicts on octets -/

section

variable {v : Verifier} {message signature : Bytes}

theorem check_mac (hash : Hash) (secret : Secret) (message tag : Bytes) :
    (mac hash secret).check (.octets message) (.octets tag) =
      .ok (decide (tag = Hmac.tag hash secret.bytes message)) := by
  show checkMac hash secret (.octets message) (.octets tag) = _
  rw [checkMac_octets, Except.ok.injEq, Bool.eq_iff_iff, Bytes.equalThroughout_eq_true_iff,
    decide_eq_true_iff, eq_comm]

theorem check_pss (hash : Hash) (key : Rsa.PublicKey) (message signature : Bytes) :
    (pss hash key).check (.octets message) (.octets signature) =
      if Rsa.Pss.hasRoom key hash then .ok (Rsa.Pss.verify key hash message signature)
      else fail .noRoomForDigest := rfl

theorem check_ecdsa (hash : Hash) (key : Ecdsa.PublicKey) (message signature : Bytes) :
    (ecdsa hash key).check (.octets message) (.octets signature) =
      .ok (Ecdsa.verify key hash message signature) := checkEcdsa_octets hash key message signature

/-- A signature that is not two numbers in range is refused. -/
theorem check_ecdsa_eq_false {hash : Hash} {key : Ecdsa.PublicKey} {domain : Curve.Domain}
    (known : key.curve.domain? = some domain)
    (bad : signature.length ≠ 2 * key.curve.width
      ∨ ∃ half ∈ [signature.take key.curve.width, signature.drop key.curve.width],
        Bytes.toNat half = 0 ∨ domain.order ≤ Bytes.toNat half) :
    (ecdsa hash key).check (.octets message) (.octets signature) = .ok false := by
  rw [check_ecdsa, Except.ok.injEq]
  rcases bad with other_length | ⟨half, member, out⟩
  · exact Ecdsa.verify_eq_false_of_length other_length hash message
  · refine Ecdsa.verify_eq_false_of_range known ?_ hash message
    rintro ⟨r_pos, r_lt, s_pos, s_lt⟩
    simp only [List.mem_cons, List.not_mem_nil, or_false] at member
    rcases member with rfl | rfl
    · omega
    · omega

theorem check_of_cramped (cramped : v.Cramped) :
    v.check (.octets message) (.octets signature) = fail .noRoomForDigest := by
  cases cramped with
  | pss small =>
    rw [check_pss, if_neg]
    exact fun room => hasRoom_iff.1 room (.pss small)

/-- There is a verdict on every signature, unless the verifier cannot be asked. -/
theorem exists_check_iff :
    (∃ answer, v.check (.octets message) (.octets signature) = .ok answer) ↔ ¬ v.Cramped := by
  constructor
  · rintro ⟨answer, told⟩ cramped
    rw [check_of_cramped cramped] at told
    exact fail_ne_ok _ _ told
  · intro h
    cases v with
    | mac hash secret => exact ⟨_, check_mac hash secret message signature⟩
    | pkcs1 hash key => exact ⟨_, rfl⟩
    | pss hash key =>
      rw [check_pss, if_pos (hasRoom_iff.2 h)]
      exact ⟨_, rfl⟩
    | ecdsa hash key => exact ⟨_, check_ecdsa hash key message signature⟩

end

/-! ## The header -/

section

variable {v : Verifier} {header : JwsHeader}

theorem verify_of_name (named : header.algorithm = .string v.algorithm.name)
    (message signature : Material) :
    v.verify header message signature = v.check message signature := by
  have supported : header.algorithm ∈ v.supported.map Json.Text.string :=
    List.mem_singleton.2 named
  rw [verify, if_pos supported]

theorem verify_of_other_name (other : header.algorithm ≠ .string v.algorithm.name)
    (message signature : Material) :
    v.verify header message signature = reject (.unknownSignature header.algorithm.shown) := by
  have unsupported : header.algorithm ∉ v.supported.map Json.Text.string :=
    fun supported => other (List.mem_singleton.1 supported)
  rw [verify, if_neg unsupported]

end

/-! ## Verifiers that were built -/

variable {family : SignatureFamily} {a : SignatureAlgorithm} {key : Key} {v : Verifier}

theorem bind_of_bindWithin (built : bindWithin family a.name key = .ok v) : bind a key = .ok v := by
  rw [bindWithin_name] at built
  split at built
  · exact built
  · exact absurd built (reject_ne_ok _ v)

/-- The curves of the algorithms are known. -/
theorem domain_of_suits {k : Ecdsa.PublicKey} (suits : a.Suits (.ecPublic k)) :
    ∃ domain, k.curve.domain? = some domain := by
  have of_known (known : KnownCurve) (on : k.curve.name = known.name) :
      k.curve.domain? = some known.domain := by
    rw [Curve.eq_known_of_name on, Curve.domain?]
  cases suits with
  | es256 on => exact ⟨_, of_known .p256 on⟩
  | es384 on => exact ⟨_, of_known .p384 on⟩
  | es512 on => exact ⟨_, of_known .p521 on⟩

/-- What a verifier says of octets. A header that names another algorithm is refused, whatever the
octets are. Otherwise there is a verdict, unless a modulus has no room for a digest. With a secret
it is whether the signature is the whole authentication code of the message; with a point on a curve
it is negative for a signature of any other length than two numbers have, and for numbers that are
zero or not below the order. -/
theorem verify_answers_iff (built : bindWithin family a.name key = .ok v) (header : JwsHeader)
    (message signature : Bytes) :
    (header.algorithm ≠ .string a.name →
      ∃ why, v.verify header (.octets message) (.octets signature) = reject why
        ∧ why.report.category = .unsupportedAlgorithm)
    ∧ (header.algorithm = .string a.name →
      ((∃ answer, v.verify header (.octets message) (.octets signature) = .ok answer)
        ↔ ¬ v.Cramped)
      ∧ (v.Cramped →
        v.verify header (.octets message) (.octets signature) = fail .noRoomForDigest)
      ∧ (∀ secret, key = .symmetric secret →
        v.verify header (.octets message) (.octets signature)
            = .ok (decide (signature = Hmac.tag a.hash secret.bytes message))
          ∧ (Hmac.tag a.hash secret.bytes message).length = a.hash.size)
      ∧ ∀ k, key = .ecPublic k → ∃ domain, k.curve.domain? = some domain
        ∧ (signature.length ≠ 2 * k.curve.width
            ∨ (∃ half ∈ [signature.take k.curve.width, signature.drop k.curve.width],
              Bytes.toNat half = 0 ∨ domain.order ≤ Bytes.toNat half) →
          v.verify header (.octets message) (.octets signature) = .ok false)) := by
  have bound := bind_of_bindWithin built
  have suits : a.Suits key := exists_bind_iff.1 ⟨v, bound⟩
  obtain ⟨rfl, rfl⟩ := bound_of_bind bound
  refine ⟨fun other => ⟨_, verify_of_other_name other _ _, rfl⟩, ?_⟩
  intro named
  rw [verify_of_name named]
  refine ⟨exists_check_iff, check_of_cramped, ?_, ?_⟩
  · intro secret shared
    cases v with
    | mac hash secret =>
      cases shared
      exact ⟨check_mac hash secret message signature, Hmac.length_tag hash secret.bytes message⟩
    | _ => cases shared
  · intro k shared
    obtain ⟨domain, known⟩ := domain_of_suits (shared ▸ suits)
    refine ⟨domain, known, ?_⟩
    cases v with
    | ecdsa hash key =>
      cases shared
      exact check_ecdsa_eq_false known
    | _ => cases shared

/-- A secret of thirty-two zeros. The code of the message is the verdict's only yes, so no octets at
all are none. -/
theorem verify_answers_iff_no_octets :
    ∃ v, bindWithin .hmac "HS256" (.symmetric ⟨List.replicate 32 0⟩) = .ok v
      ∧ ∀ message, v.verify ⟨.string "HS256"⟩ (.octets message) (.octets []) = .ok false := by
  have built : bindWithin .hmac (SignatureAlgorithm.hmac .sha256).name
      (.symmetric ⟨List.replicate 32 0⟩) = .ok (mac .sha256 ⟨List.replicate 32 0⟩) := by decide
  refine ⟨_, built, ?_⟩
  intro message
  obtain ⟨-, answers⟩ := verify_answers_iff built ⟨.string "HS256"⟩ message []
  obtain ⟨-, -, told, -⟩ := answers rfl
  obtain ⟨verdict, whole⟩ := told _ rfl
  rw [verdict, Except.ok.injEq, decide_eq_false_iff_not]
  intro same
  rw [← same] at whole
  exact absurd whole (by decide)

/-- A modulus of 264 bits can be bound to the probabilistic scheme, but then no signature has a
verdict. -/
theorem no_verdict_of_264_bits :
    ∃ v, bindWithin .rsa "PS256" (.rsaPublic
        ⟨0xb6b356167502b42d2a6fe305a51593732a78faf52fbe4617d2bfe30a0d21f87849, 65537⟩) = .ok v
      ∧ ∃ header, JwsHeader.create (.text "PS256") = .ok header
      ∧ ∀ message signature,
        v.verify header (.octets message) (.octets signature) = fail .noRoomForDigest := by
  refine ⟨pss .sha256 ⟨_, 65537⟩, rfl, ⟨.string "PS256"⟩, by decide, ?_⟩
  intro message signature
  have small : (⟨0xb6b356167502b42d2a6fe305a51593732a78faf52fbe4617d2bfe30a0d21f87849, 65537⟩ :
      Rsa.PublicKey).size < Hash.sha256.size + 2 := by decide +kernel
  have named : Json.Text.string "PS256" = .string (SignatureAlgorithm.pss .sha256).name := rfl
  rw [verify_of_name named, check_of_cramped (.pss small)]

end TokenCrypto.Verifier
