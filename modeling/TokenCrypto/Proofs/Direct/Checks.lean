import TokenCrypto.Proofs.Direct.Stages

/-!
# The checks before a token is opened

Eight checks come before anything of a token is read: its parts, the key management (alg), the
method (enc), the size of the key. They are made in one order, and the first that fails is what is
told, whatever else may be wrong. So what is told then depends on what the checks look at, and the
texts of the parts, the parties (epu and epv), the compression (zip) and the codecs are not among
it.

* `Check.Fails`: when a check fails, and what is told.
* `Attempt.outcome_of_first`: the first check that fails decides.
* `Attempt.Alike`: attempts of which the checks see the same.
* `Attempt.fails_fast`: a failing check decides for all attempts that are alike.
-/

namespace TokenCrypto

/-- The checks before a token is opened. -/
inductive Check where
  /-- There is no encrypted key. -/
  | noEncryptedKey
  | iv
  | tag
  | ciphertext
  /-- The key management (alg) is accepted. -/
  | algorithm
  | knownMethod
  | acceptedMethod
  | keySize
  deriving DecidableEq, Repr

/-- The order in which the checks are made. -/
def Check.place : Check → Nat
  | noEncryptedKey => 0
  | iv => 1
  | tag => 2
  | ciphertext => 3
  | algorithm => 4
  | knownMethod => 5
  | acceptedMethod => 6
  | keySize => 7

/-- The category in which a check is told to fail. -/
def Check.category : Check → Category
  | noEncryptedKey => .validation
  | iv => .validation
  | tag => .validation
  | ciphertext => .validation
  | algorithm => .unsupportedAlgorithm
  | knownMethod => .unsupportedAlgorithm
  | acceptedMethod => .unsupportedAlgorithm
  | keySize => .keyLength

/-- A token that is to be decrypted: what does it, the header and the parts. -/
structure Attempt where
  direct : Direct
  header : JweHeader
  parts : Parts

namespace Attempt

/-- What comes of an attempt. -/
def outcome (a : Attempt) : Except Error Bytes := a.direct.decrypt a.header a.parts

end Attempt

/-- When a check fails, and what is told then. Each check is on its own here: it may fail whether or
not others do. -/
inductive Check.Fails (a : Attempt) : Check → Rejection → Prop
  | noEncryptedKey {text : String} (given : a.parts.encryptedKey = some text) (h : text ≠ "") :
    Fails a noEncryptedKey .encryptedKeyPresent
  | iv (h : a.parts.iv = none) : Fails a iv .ivMissing
  | tag (h : a.parts.tag = none) : Fails a tag .tagMissing
  | ciphertext (h : a.parts.ciphertext = none) : Fails a ciphertext .ciphertextMissing
  | algorithm (h : ∀ name ∈ a.direct.policy.algorithmNames, a.header.algorithm ≠ .string name) :
    Fails a algorithm (.refusedKeyManagement a.header.algorithm.shown)
  | knownMethod (h : ∀ method : EncryptionMethod, a.header.method ≠ .string method.name) :
    Fails a knownMethod (.unknownMethod a.header.method.shown)
  | acceptedMethod {method : EncryptionMethod} (named : a.header.method = .string method.name)
    (h : method ∉ a.direct.policy.methods) :
    Fails a acceptedMethod (.refusedMethod method.name a.direct.policy.methodNames)
  | keySize {method : EncryptionMethod} (named : a.header.method = .string method.name)
    (h : method.keyBits ≠ 8 * a.direct.key.bytes.length) :
    Fails a keySize (.keyLength {
      algorithm := method.name
      expectedBits := method.keyBits
      actualBits := a.direct.key.bitLength })

theorem Check.Fails.category {a : Attempt} {c : Check} {why : Rejection} (h : c.Fails a why) :
    why.report.category = c.category := by
  cases h <;> rfl

/-- A check that does not fail. -/
def Check.Passes (a : Attempt) (c : Check) : Prop := ∀ why, ¬ c.Fails a why

/-- A check that fails behind checks that do not, and what is told then. -/
structure Check.FailsFirst (a : Attempt) (c : Check) (why : Rejection) : Prop where
  fails : c.Fails a why
  earlier : ∀ other : Check, other.place < c.place → other.Passes a

namespace Attempt

variable {a b : Attempt} {c : Check} {why : Rejection}

/-! ## What a check that is passed shows -/

/-- An encrypted key is there if there is a text for it and not an empty one. -/
theorem encryptedKeyText_ne_iff {parts : Parts} : parts.encryptedKeyText ≠ "" ↔
    ∃ text, parts.encryptedKey = some text ∧ text ≠ "" := by
  unfold Parts.encryptedKeyText
  cases parts.encryptedKey with
  | none => simp
  | some text => simp

theorem encryptedKeyText_of_passes (h : Check.noEncryptedKey.Passes a) :
    a.parts.encryptedKeyText = "" := by
  apply Classical.byContradiction
  intro present
  obtain ⟨text, given, some_text⟩ := encryptedKeyText_ne_iff.1 present
  exact h _ (.noEncryptedKey given some_text)

theorem iv_of_passes (h : Check.iv.Passes a) : ∃ iv, a.parts.iv = some iv :=
  Option.ne_none_iff_exists'.1 fun missing => h _ (.iv missing)

theorem tag_of_passes (h : Check.tag.Passes a) : ∃ tag, a.parts.tag = some tag :=
  Option.ne_none_iff_exists'.1 fun missing => h _ (.tag missing)

theorem ciphertext_of_passes (h : Check.ciphertext.Passes a) :
    ∃ ciphertext, a.parts.ciphertext = some ciphertext :=
  Option.ne_none_iff_exists'.1 fun missing => h _ (.ciphertext missing)

theorem checkAlgorithm_of_passes (h : Check.algorithm.Passes a) :
    a.direct.checkAlgorithm a.header = .ok () := by
  rw [Direct.checkAlgorithm_eq_ok_iff]
  apply Classical.byContradiction
  intro refused
  exact h _ (.algorithm fun name known named => refused ⟨name, known, named⟩)

theorem mem_methods_of_passes (h : Check.acceptedMethod.Passes a) {method : EncryptionMethod}
    (named : a.header.method = .string method.name) : method ∈ a.direct.policy.methods := by
  apply Classical.byContradiction
  intro refused
  exact h _ (.acceptedMethod named refused)

/-! ## Stages that refuse -/

section

variable {d : Direct} {header : JweHeader} {parts : Parts}

theorem checkParts_of_no_iv (no_key : parts.encryptedKeyText = "") (missing : parts.iv = none) :
    Direct.checkParts parts = reject .ivMissing := by
  unfold Direct.checkParts
  rw [if_neg (not_not_intro no_key), missing]

theorem checkParts_of_no_tag (no_key : parts.encryptedKeyText = "") {iv : String}
    (given : parts.iv = some iv) (missing : parts.tag = none) :
    Direct.checkParts parts = reject .tagMissing := by
  unfold Direct.checkParts
  rw [if_neg (not_not_intro no_key), given, missing]

theorem checkParts_of_no_ciphertext (no_key : parts.encryptedKeyText = "") {iv tag : String}
    (given : parts.iv = some iv) (given' : parts.tag = some tag)
    (missing : parts.ciphertext = none) :
    Direct.checkParts parts = reject .ciphertextMissing := by
  unfold Direct.checkParts
  rw [if_neg (not_not_intro no_key), given, given', missing]

theorem checkAlgorithm_of_refused
    (refused : ∀ name ∈ d.policy.algorithmNames, header.algorithm ≠ .string name) :
    d.checkAlgorithm header = reject (.refusedKeyManagement header.algorithm.shown) := by
  refine if_neg ?_
  intro accepted
  obtain ⟨name, known, same⟩ := List.mem_map.1 accepted
  exact refused name known same.symm

theorem selectMethod_of_unknown
    (unknown : ∀ method : EncryptionMethod, header.method ≠ .string method.name) :
    d.selectMethod header = reject (.unknownMethod header.method.shown) := by
  unfold Direct.selectMethod
  split
  · rfl
  · next method found =>
    exact absurd (EncryptionMethod.bind_ofName?_eq_some_iff.1 found) (unknown method)

theorem selectMethod_of_refused {method : EncryptionMethod}
    (named : header.method = .string method.name) (refused : method ∉ d.policy.methods) :
    d.selectMethod header = reject (.refusedMethod method.name d.policy.methodNames) := by
  have unlisted : method.name ∉ d.policy.methodNames := by
    rwa [Policy.mem_methodNames_iff]
  unfold Direct.selectMethod
  rw [EncryptionMethod.bind_ofName?_eq_some_iff.2 named]
  exact if_pos unlisted

theorem selectMethod_of_other_size {method : EncryptionMethod}
    (named : header.method = .string method.name) (accepted : method ∈ d.policy.methods)
    (sized : method.keyBits ≠ d.key.bitLength) :
    d.selectMethod header = reject (.keyLength {
      algorithm := method.name
      expectedBits := method.keyBits
      actualBits := d.key.bitLength }) := by
  have listed : method.name ∈ d.policy.methodNames := by
    rwa [Policy.mem_methodNames_iff]
  unfold Direct.selectMethod
  rw [EncryptionMethod.bind_ofName?_eq_some_iff.2 named]
  exact (if_neg (not_not_intro listed)).trans (if_pos sized)

end

/-- Behind the checks of the parts, all that is needed is given. -/
theorem exists_given (earlier : ∀ other : Check, other.place < c.place → other.Passes a)
    (behind : Check.ciphertext.place < c.place) :
    ∃ given, Direct.checkParts a.parts = .ok given := by
  have passes (other : Check) (h : other.place ≤ Check.ciphertext.place) : other.Passes a :=
    earlier other (Nat.lt_of_le_of_lt h behind)
  obtain ⟨iv, iv_eq⟩ := iv_of_passes (passes .iv (by decide))
  obtain ⟨tag, tag_eq⟩ := tag_of_passes (passes .tag (by decide))
  obtain ⟨ciphertext, ciphertext_eq⟩ := ciphertext_of_passes (passes .ciphertext (by decide))
  have no_key := encryptedKeyText_of_passes (passes .noEncryptedKey (by decide))
  exact ⟨_, Direct.checkParts_eq_ok_iff.2 ⟨no_key, iv_eq, ciphertext_eq, tag_eq⟩⟩

theorem outcome_of_parts (refused : Direct.checkParts a.parts = reject why) :
    a.outcome = reject why := by
  unfold outcome Direct.decrypt
  rw [refused, reject_bind]

theorem outcome_of_algorithm {given : String × String × String}
    (passed : Direct.checkParts a.parts = .ok given)
    (refused : a.direct.checkAlgorithm a.header = reject why) : a.outcome = reject why := by
  obtain ⟨iv, ciphertext, tag⟩ := given
  unfold outcome Direct.decrypt
  rw [passed, ok_bind]
  show (a.direct.checkAlgorithm a.header >>= _) = _
  rw [refused, reject_bind]

theorem outcome_of_method {given : String × String × String}
    (passed : Direct.checkParts a.parts = .ok given)
    (checked : a.direct.checkAlgorithm a.header = .ok ())
    (refused : a.direct.selectMethod a.header = reject why) : a.outcome = reject why := by
  obtain ⟨iv, ciphertext, tag⟩ := given
  unfold outcome Direct.decrypt
  rw [passed, ok_bind]
  show (a.direct.checkAlgorithm a.header >>= _) = _
  rw [checked, ok_bind, refused, reject_bind]

/-- The first check that fails decides. -/
theorem outcome_of_first (first : c.FailsFirst a why) : a.outcome = reject why := by
  obtain ⟨fails, earlier⟩ := first
  cases fails with
  | noEncryptedKey given present =>
    exact outcome_of_parts (if_pos (encryptedKeyText_ne_iff.2 ⟨_, given, present⟩))
  | iv missing =>
    have no_key := encryptedKeyText_of_passes (earlier .noEncryptedKey (by decide))
    exact outcome_of_parts (checkParts_of_no_iv no_key missing)
  | tag missing =>
    have no_key := encryptedKeyText_of_passes (earlier .noEncryptedKey (by decide))
    obtain ⟨iv, given⟩ := iv_of_passes (earlier .iv (by decide))
    exact outcome_of_parts (checkParts_of_no_tag no_key given missing)
  | ciphertext missing =>
    have no_key := encryptedKeyText_of_passes (earlier .noEncryptedKey (by decide))
    obtain ⟨iv, given⟩ := iv_of_passes (earlier .iv (by decide))
    obtain ⟨tag, given'⟩ := tag_of_passes (earlier .tag (by decide))
    exact outcome_of_parts (checkParts_of_no_ciphertext no_key given given' missing)
  | algorithm refused =>
    obtain ⟨given, passed⟩ := exists_given earlier (by decide)
    exact outcome_of_algorithm passed (checkAlgorithm_of_refused refused)
  | knownMethod unknown =>
    obtain ⟨given, passed⟩ := exists_given earlier (by decide)
    have checked := checkAlgorithm_of_passes (earlier .algorithm (by decide))
    exact outcome_of_method passed checked (selectMethod_of_unknown unknown)
  | acceptedMethod named refused =>
    obtain ⟨given, passed⟩ := exists_given earlier (by decide)
    have checked := checkAlgorithm_of_passes (earlier .algorithm (by decide))
    exact outcome_of_method passed checked (selectMethod_of_refused named refused)
  | keySize named sized =>
    obtain ⟨given, passed⟩ := exists_given earlier (by decide)
    have checked := checkAlgorithm_of_passes (earlier .algorithm (by decide))
    have accepted := mem_methods_of_passes (earlier .acceptedMethod (by decide)) named
    exact outcome_of_method passed checked (selectMethod_of_other_size named accepted sized)

/-- Where a check fails there is a first one that does. -/
theorem exists_first (fails : c.Fails a why) :
    ∃ (first : Check) (told : Rejection), first.FailsFirst a told := by
  -- Going back from check to check, the place gets less each time.
  induction n : c.place using Nat.strongRecOn generalizing c why with
  | ind n ih =>
    by_cases earlier : ∃ (other : Check) (told : Rejection), other.place < c.place
        ∧ other.Fails a told
    · obtain ⟨other, told, before, fails'⟩ := earlier
      exact ih other.place (n ▸ before) fails' rfl
    · refine ⟨c, why, fails, ?_⟩
      intro other before told fails'
      exact earlier ⟨other, told, before, fails'⟩

/-! ## Attempts that are alike -/

/-- Attempts of which the checks see the same: an encrypted key that is missing is as good as an
empty one, and of the other parts nothing counts but whether they are there. -/
structure Alike (a b : Attempt) : Prop where
  keySize : a.direct.key.bytes.length = b.direct.key.bytes.length
  methods : a.direct.policy.methods = b.direct.policy.methods
  algorithm : a.header.algorithm = b.header.algorithm
  method : a.header.method = b.header.method
  encryptedKey : a.parts.encryptedKeyText = b.parts.encryptedKeyText
  iv : a.parts.iv = none ↔ b.parts.iv = none
  tag : a.parts.tag = none ↔ b.parts.tag = none
  ciphertext : a.parts.ciphertext = none ↔ b.parts.ciphertext = none

theorem Alike.symm (h : a.Alike b) : b.Alike a where
  keySize := h.keySize.symm
  methods := h.methods.symm
  algorithm := h.algorithm.symm
  method := h.method.symm
  encryptedKey := h.encryptedKey.symm
  iv := h.iv.symm
  tag := h.tag.symm
  ciphertext := h.ciphertext.symm

/-- A check tells the same of attempts that are alike. -/
theorem Alike.fails (h : a.Alike b) (fails : c.Fails a why) : c.Fails b why := by
  cases fails with
  | noEncryptedKey given some_text =>
    have present := encryptedKeyText_ne_iff.2 ⟨_, given, some_text⟩
    rw [h.encryptedKey] at present
    obtain ⟨text, given', some_text'⟩ := encryptedKeyText_ne_iff.1 present
    exact .noEncryptedKey given' some_text'
  | iv missing => exact .iv (h.iv.1 missing)
  | tag missing => exact .tag (h.tag.1 missing)
  | ciphertext missing => exact .ciphertext (h.ciphertext.1 missing)
  | algorithm refused =>
    rw [h.algorithm]
    refine .algorithm fun name known => ?_
    rw [← h.algorithm]
    exact refused name (by rwa [Policy.mem_algorithmNames_iff] at known ⊢)
  | knownMethod unknown =>
    rw [h.method]
    refine .knownMethod fun method => ?_
    rw [← h.method]
    exact unknown method
  | acceptedMethod named refused =>
    rw [Policy.methodNames, h.methods]
    exact .acceptedMethod (h.method ▸ named) (h.methods ▸ refused)
  | keySize named sized =>
    rw [Secret.bitLength, h.keySize]
    exact .keySize (h.method ▸ named) (h.keySize ▸ sized)

/-- The same check fails first in attempts that are alike. -/
theorem Alike.failsFirst (h : a.Alike b) (first : c.FailsFirst a why) : c.FailsFirst b why where
  fails := h.fails first.fails
  earlier other before why' fails' := first.earlier other before why' (h.symm.fails fails')

/-- If a check fails, the first that does is told, in its category. The same is told of every
attempt that is alike: with any texts for the IV, the ciphertext and the tag, as long as the same of
them are missing, with any parties, compression and codecs. Whether the encrypted key is missing or
empty makes no difference, whether or not a check fails. -/
theorem fails_fast (a : Attempt) :
    (∀ (c : Check) (why : Rejection), c.Fails a why →
      ∃ (first : Check) (told : Rejection), first.FailsFirst a told
        ∧ told.report.category = first.category ∧ a.outcome = reject told
        ∧ ∀ b, a.Alike b → b.outcome = reject told)
    ∧ outcome { a with parts := { a.parts with encryptedKey := none } } =
        outcome { a with parts := { a.parts with encryptedKey := some "" } } := by
  constructor
  · intro c why fails
    obtain ⟨first, told, fails_first⟩ := exists_first fails
    refine ⟨first, told, fails_first, fails_first.fails.category, outcome_of_first fails_first, ?_⟩
    intro b alike
    exact outcome_of_first (alike.failsFirst fails_first)
  · rfl

/-- A method that is not accepted, and a key that is not of its size. Of the second token no part
can be read, the header cannot be authenticated, and the codec takes no stream. -/
theorem fails_fast_two_defects :
    ∃ a b : Attempt,
      (∃ why, Check.acceptedMethod.Fails a why) ∧ (∃ why, Check.keySize.Fails a why)
      ∧ a.Alike b ∧ b.parts = ⟨some "", some "é", some "A", some "="⟩
      ∧ b.header.partyU = some [1] ∧ b.header.compression = some (.string "DEF")
      ∧ a.outcome = reject (.refusedMethod "A128CBC-HS256" ["A128GCM", "A256GCM"])
      ∧ b.outcome = reject (.refusedMethod "A128CBC-HS256" ["A128GCM", "A256GCM"]) := by
  let a : Attempt := {
    direct := Direct.Sample.direct .gcmOnly .standard
    header := ⟨.string "dir", .string "A128CBC-HS256", none, none, none, "e30"⟩
    parts := Direct.Sample.parts }
  let b : Attempt := {
    direct := Direct.Sample.direct .gcmOnly
      [("DEF", ⟨.ok, fun _ _ => .error (.failure (.failed ""))⟩)]
    header := ⟨.string "dir", .string "A128CBC-HS256", some (.string "DEF"), some [1], none, "é"⟩
    parts := ⟨some "", some "é", some "A", some "="⟩ }
  have named : a.header.method = .string (EncryptionMethod.composite .a128cbcHs256).name := rfl
  have refused := Check.Fails.acceptedMethod named (by decide)
  have sized := Check.Fails.keySize named (by decide)
  have alike : a.Alike b :=
    ⟨rfl, rfl, rfl, rfl, rfl, by decide, by decide, by decide⟩
  have outcome_eq : a.outcome = reject (.refusedMethod "A128CBC-HS256" ["A128GCM", "A256GCM"]) := by
    decide +kernel
  obtain ⟨first, told, -, -, told_of_a, told_of_b⟩ := (fails_fast a).1 _ _ refused
  obtain rfl : told = .refusedMethod "A128CBC-HS256" ["A128GCM", "A256GCM"] := by
    rw [outcome_eq] at told_of_a
    cases told_of_a
    rfl
  exact ⟨a, b, ⟨_, refused⟩, ⟨_, sized⟩, alike, rfl, rfl, rfl, outcome_eq, told_of_b b alike⟩

end Attempt

end TokenCrypto
