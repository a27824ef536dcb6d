import TokenCrypto.Material.Octets

/-!
# Key derivation

One shared secret (Z) becomes as many keys as there are purposes, by the concatenation KDF. A key is
made of the digests of a counter, the secret, and a text about the key (OtherInfo). That text gives
the method, the label of the purpose, the information about the two parties (PartyUInfo from epu,
PartyVInfo from epv), each behind its length, and the length of the key (SuppPubInfo).

A composite method takes two keys, the content encryption key (CEK) and the content integrity key
(CIK), which are wiped once they have been used.

* `Derivation.partyField_ofBytes?`: a party without information counts as one with no octets of it.
* `Derivation.length_expand`: the key has exactly the length asked for.
* `KeyPair.step_snd`: every step but the display wipes the keys.
-/

namespace TokenCrypto

namespace Derivation

/-! ## The text about the key (OtherInfo) -/

/-- A number in four octets, the most significant first; a number that does not fit is a fault. -/
def field32 (n : Int) : Except Error Bytes :=
  if 0 ≤ n ∧ n < 0x100000000 then .ok (Bytes.ofNat 4 n.toNat) else fail .fieldOverflow

/-- Octets behind their length. -/
def lengthPrefixed (bytes : Bytes) : Except Error Bytes :=
  (field32 bytes.length).map (· ++ bytes)

/-- PartyUInfo or PartyVInfo: the information about a party (epu or epv) behind its length. A value
that counts as none has no octets; one that is made of other items is unfit to stand behind a
length. -/
def partyField (info : Material) : Except Error Bytes :=
  match info.bytes? with
  | some bytes => lengthPrefixed bytes
  | none =>
    if info.isVoid then lengthPrefixed []
    else do
      let _ ← info.size
      fail (.unfit .joined info.kind)

/-- OtherInfo, the text about a key of so many bits: AlgorithmID, which is the method and the label,
then PartyUInfo, PartyVInfo and SuppPubInfo, which is the number of bits. -/
def otherInfo (label method : String) (partyU partyV : Material) (bits : Int) :
    Except Error Bytes := do
  let method ← lengthPrefixed (← asciiBytes method)
  let label ← lengthPrefixed (← asciiBytes label)
  let partyU ← partyField partyU
  let partyV ← partyField partyV
  let bits ← field32 bits
  return method ++ label ++ partyU ++ partyV ++ bits

/-! ## Deriving -/

/-- What is hashed in the round of a counter: the counter, the secret (Z) and OtherInfo. -/
def roundInput (secret info : Bytes) (counter : Nat) : Bytes :=
  Bytes.ofNat 4 counter ++ secret ++ info

/-- The digests of all rounds, cut to `size` octets. Counters begin with one. -/
def expand (hash : Hash) (secret info : Bytes) (size : Nat) : Bytes :=
  ((List.range ((size + hash.size - 1) / hash.size)).flatMap fun i =>
    hash.digest (roundInput secret info (i + 1))).take size

/-- The hash function of the KDF, by its name. -/
def hashNamed (name : String) : Except Error Hash :=
  match Hash.ofName? name with
  | some hash => .ok hash
  | none => reject (.unknownDerivationHash name)

/-- A key of so many bits, which have to be whole octets and one of them at least. -/
def derive (hash : Hash) (secret : Material) (label method : String) (partyU partyV : Material)
    (bits : Int) : Except Error Bytes := do
  let secret ← secret.bytes .sharedSecret
  if bits ≤ 0 ∨ bits % 8 ≠ 0 then fail (.derivedBits bits)
  else
    let info ← otherInfo label method partyU partyV bits
    return expand hash secret info (bits / 8).toNat

@[simp] theorem partyField_octets (info : Bytes) :
    partyField (.octets info) = lengthPrefixed info := rfl

@[simp] theorem partyField_ofBytes? (info : Option Bytes) :
    partyField (.ofBytes? info) = lengthPrefixed (info.getD []) := by
  cases info with
  | none => rw [partyField, Material.ofBytes?, Option.getD_none]; exact if_pos rfl
  | some info => exact partyField_octets info

theorem le_digests (hash : Hash) (size : Nat) :
    size ≤ (size + hash.size - 1) / hash.size * hash.size := by
  have pos : 0 < hash.size := by cases hash <;> decide
  have := Nat.div_add_mod (size + hash.size - 1) hash.size
  have := Nat.mod_lt (size + hash.size - 1) pos
  rw [Nat.mul_comm]
  omega

@[simp] theorem length_expand (hash : Hash) (secret info : Bytes) (size : Nat) :
    (expand hash secret info size).length = size := by
  have := le_digests hash size
  simp only [expand, List.length_take, List.length_flatMap, Hash.length_digest, List.map_const',
    List.length_range, List.sum_replicate_nat]
  omega

end Derivation

/-! ## The two keys of a composite method -/

/-- A derived key set: `content` is the content encryption key (CEK), for AES-CBC, and `integrity`
the content integrity key (CIK), for HMAC. They may have been wiped. -/
structure KeyPair where
  content : Bytes
  integrity : Bytes
  wiped : Bool := false
  deriving DecidableEq

namespace KeyPair

/-- The label of a CEK. -/
def contentLabel : String := "Encryption"

/-- The label of a CIK. -/
def integrityLabel : String := "Integrity"

def derive (method : CompositeMethod) (secret partyU partyV : Material) :
    Except Error KeyPair := do
  let content ← Derivation.derive method.hash secret contentLabel method.name partyU partyV
    method.contentBits
  let integrity ← Derivation.derive method.hash secret integrityLabel method.name partyU partyV
    method.integrityBits
  return { content, integrity }

/-- The CEK and the CIK of a method that is given by name; an AES-GCM method has none. -/
def deriveFor (name : String) (secret partyU partyV : Material) : Except Error KeyPair :=
  match EncryptionMethod.ofName? name with
  | none => fail (.noSuchMethod name)
  | some (.gcm method) => reject (.notDerived method.name)
  | some (.composite method) => derive method secret partyU partyV

theorem deriveFor_name (method : CompositeMethod) (secret partyU partyV : Material) :
    deriveFor method.name secret partyU partyV = derive method secret partyU partyV := by
  have named : EncryptionMethod.ofName? method.name = some (.composite method) :=
    EncryptionMethod.ofName?_name (.composite method)
  rw [deriveFor, named]

theorem deriveFor_gcm (method : GcmMethod) (secret partyU partyV : Material) :
    deriveFor method.name secret partyU partyV = reject (.notDerived method.name) := by
  have named : EncryptionMethod.ofName? method.name = some (.gcm method) :=
    EncryptionMethod.ofName?_name (.gcm method)
  rw [deriveFor, named]

def wipe (pair : KeyPair) : KeyPair where
  content := pair.content.zeroed
  integrity := pair.integrity.zeroed
  wiped := true

/-- The keys lent to a use and wiped in any case: the outcome of the use, and the keys after it. -/
def lend {ε α : Type} (pair : KeyPair) (body : KeyPair → Except ε α) : Except ε α × KeyPair :=
  (body pair, pair.wipe)

/-- How a diagnosis shows the keys: by their lengths alone. -/
def display (pair : KeyPair) : String :=
  s!"DerivedKeySet(cek_bits={8 * pair.content.length}, cik_bits={8 * pair.integrity.length})"

/-! ## Steps -/

/-- What may be done with a CEK and a CIK. -/
inductive Step where
  | wipe
  /-- Use the keys and look at them meanwhile. -/
  | look
  /-- Use the keys and give up meanwhile. -/
  | giveUp (why : String)
  | display
  deriving DecidableEq, Repr

/-- What a step lets see. -/
inductive Sight where
  | nothing
  | keys (content integrity : Bytes)
  | givenUp (why : String)
  | text (shown : String)
  deriving DecidableEq

/-- What is seen of a use of the keys. -/
def sightOf : Except String (Bytes × Bytes) → Sight
  | .ok (content, integrity) => .keys content integrity
  | .error why => .givenUp why

/-- What a step lets see, and the keys after it. -/
def step (pair : KeyPair) : Step → Sight × KeyPair
  | .wipe => (.nothing, pair.wipe)
  | .look =>
    let (outcome, after) := pair.lend fun keys => .ok (keys.content, keys.integrity)
    (sightOf outcome, after)
  | .giveUp why =>
    let (outcome, after) := pair.lend fun _ => .error why
    (sightOf outcome, after)
  | .display => (.text pair.display, pair)

/-- What each of a sequence of steps lets see, with the keys after it. -/
def run (pair : KeyPair) : List Step → List (Sight × KeyPair)
  | [] => []
  | s :: rest =>
    let next := pair.step s
    next :: run next.2 rest

@[simp] theorem length_content_wipe (pair : KeyPair) :
    pair.wipe.content.length = pair.content.length := by
  simp [wipe]

@[simp] theorem length_integrity_wipe (pair : KeyPair) :
    pair.wipe.integrity.length = pair.integrity.length := by
  simp [wipe]

@[simp] theorem wipe_wipe (pair : KeyPair) : pair.wipe.wipe = pair.wipe := by
  simp [wipe]

/-- Every step but the display wipes the keys. -/
theorem step_snd (pair : KeyPair) (s : Step) :
    (pair.step s).2 = if s = .display then pair else pair.wipe := by
  cases s <;> rfl

/-- The display tells nothing but the lengths. -/
theorem display_eq_of_length {pair other : KeyPair}
    (content_length : other.content.length = pair.content.length)
    (integrity_length : other.integrity.length = pair.integrity.length) :
    other.display = pair.display := by
  unfold display
  rw [content_length, integrity_length]

end KeyPair

end TokenCrypto
