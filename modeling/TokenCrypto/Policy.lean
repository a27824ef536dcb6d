import TokenCrypto.Algorithm.Encryption
import TokenCrypto.Text.Quoted

/-!
# Policies

A policy is the configuration of a decrypter: which algorithms (alg, enc and zip) a token may name,
and how long a plaintext may become when it is decompressed. It is asked for by names; a name that
nothing goes by is refused, and so is a policy that accepts no key management (alg) or no encryption
method (enc).

* `Policy.direct_mem`: every policy accepts the direct use of a shared key.
* `Policy.mem_methodNames_iff`: a name is accepted exactly if its method is.
-/

namespace TokenCrypto

/-- The parts of a policy that are lists of names. -/
inductive PolicyPart where
  | algorithms
  | methods
  | compression
  deriving DecidableEq, Repr

namespace PolicyPart

/-- The name of a part in a diagnosis. -/
def name : PolicyPart → String
  | algorithms => "accepted_algorithms"
  | methods => "accepted_methods"
  | compression => "accepted_compression"

/-- The names that a part may have, in order. -/
def known : PolicyPart → List String
  | algorithms => KeyManagement.all.map KeyManagement.name
  | methods => EncryptionMethod.all.map EncryptionMethod.name
  | compression => CompressionAlgorithm.all.map CompressionAlgorithm.name

end PolicyPart

/-- Why there is no policy. -/
inductive PolicyError where
  | empty (part : PolicyPart)
  | unknownName (part : PolicyPart)
  | noLimit
  | unknownProfile (name : String)
  deriving DecidableEq, Repr

/-- What is told about a policy that is refused. -/
def PolicyError.message : PolicyError → String
  | .empty part => s!"{part.name} must not be empty"
  | .unknownName part =>
    s!"{part.name} must be a subset of [" ++ String.intercalate ", " (part.known.map Quoted.quote)
      ++ "]"
  | .noLimit => "max_decompressed_size must be >= 1"
  | .unknownProfile name => Quoted.quote name ++ " is not a valid SecurityProfile"

/-- What a policy is asked to accept; what is left out is accepted as usual. -/
structure PolicyRequest where
  algorithms : Option (List String) := none
  methods : Option (List String) := none
  compression : Option (List String) := none
  limit : Option Int := none

/-- A policy. Each list is in the order of names and without repetitions. -/
structure Policy where
  algorithms : List KeyManagement
  methods : List EncryptionMethod
  compression : List CompressionAlgorithm
  limit : Nat
  algorithms_ne_nil : algorithms ≠ []
  methods_ne_nil : methods ≠ []
  limit_pos : 0 < limit

namespace Policy

/-- The usual bound on a decompressed plaintext, ten mebibytes. -/
def usualLimit : Nat := 10 * 1024 * 1024

/-- The policy that accepts everything there is, the profile `default`. -/
def standard : Policy where
  algorithms := KeyManagement.all
  methods := EncryptionMethod.all
  compression := CompressionAlgorithm.all
  limit := usualLimit
  algorithms_ne_nil := by decide
  methods_ne_nil := by decide
  limit_pos := by decide

/-- The policy that accepts AES-GCM methods and no compression, the profile `aead_only`. -/
def gcmOnly : Policy where
  algorithms := KeyManagement.all
  methods := [.gcm .a128gcm, .gcm .a256gcm]
  compression := []
  limit := usualLimit
  algorithms_ne_nil := by decide
  methods_ne_nil := by decide
  limit_pos := by decide

def ofProfile (name : String) : Except PolicyError Policy :=
  if name = "default" then .ok standard
  else if name = "aead_only" then .ok gcmOnly
  else .error (.unknownProfile name)

/-! ## Asking by names -/

/-- Those of `all` that go by one of the names, which all have to be known. -/
def select {α : Type} (all : List α) (nameOf : α → String) (part : PolicyPart)
    (names : List String) : Except PolicyError (List α) :=
  if names.all fun name => (all.map nameOf).contains name then
    .ok (all.filter fun a => names.contains (nameOf a))
  else .error (.unknownName part)

def nonempty {α : Type} (part : PolicyPart) : List α → Except PolicyError { xs : List α // xs ≠ [] }
  | [] => .error (.empty part)
  | x :: rest => .ok ⟨x :: rest, List.cons_ne_nil x rest⟩

/-- Those of `all` that go by one of the names, all of which have to be known and one of which there
has to be. -/
def selectSome {α : Type} (all : List α) (nameOf : α → String) (part : PolicyPart)
    (names : List String) : Except PolicyError { xs : List α // xs ≠ [] } := do
  if names.isEmpty then .error (.empty part)
  else nonempty part (← select all nameOf part names)

/-- A bound on the size of a plaintext (`max_decompressed_size`), which has to leave room for
something. -/
def bound (limit : Int) : Except PolicyError { n : Nat // 0 < n } :=
  if h : 1 ≤ limit then .ok ⟨limit.toNat, by omega⟩ else .error .noLimit

/-- The policy that is asked for. -/
def create (request : PolicyRequest) : Except PolicyError Policy := do
  let algorithms ← selectSome KeyManagement.all KeyManagement.name .algorithms
    (request.algorithms.getD PolicyPart.algorithms.known)
  let methods ← selectSome EncryptionMethod.all EncryptionMethod.name .methods
    (request.methods.getD PolicyPart.methods.known)
  let compression ← select CompressionAlgorithm.all CompressionAlgorithm.name .compression
    (request.compression.getD PolicyPart.compression.known)
  let limit ← bound (request.limit.getD usualLimit)
  return {
    algorithms := algorithms.val
    methods := methods.val
    compression
    limit := limit.val
    algorithms_ne_nil := algorithms.property
    methods_ne_nil := methods.property
    limit_pos := limit.property }

/-! ## What is accepted -/

/-- The names of the accepted key management, as alg gives them. -/
def algorithmNames (policy : Policy) : List String := policy.algorithms.map KeyManagement.name

def methodNames (policy : Policy) : List String := policy.methods.map EncryptionMethod.name

/-- The names of the accepted compression, as zip gives them. -/
def compressionNames (policy : Policy) : List String :=
  policy.compression.map CompressionAlgorithm.name

/-- Every policy accepts the direct use of a shared key (dir). -/
theorem direct_mem (policy : Policy) : KeyManagement.direct ∈ policy.algorithms := by
  cases h : policy.algorithms with
  | nil => exact absurd h policy.algorithms_ne_nil
  | cons a rest => cases a; simp

/-- The accepted key management has one name only. -/
theorem mem_algorithmNames_iff (policy : Policy) (name : String) :
    name ∈ policy.algorithmNames ↔ name = KeyManagement.direct.name := by
  constructor
  · intro h
    obtain ⟨a, -, rfl⟩ := List.mem_map.1 h
    cases a; rfl
  · rintro rfl
    exact List.mem_map.2 ⟨_, policy.direct_mem, rfl⟩

/-- A method's name is accepted exactly if the method is. -/
theorem mem_methodNames_iff (policy : Policy) (m : EncryptionMethod) :
    m.name ∈ policy.methodNames ↔ m ∈ policy.methods := by
  constructor
  · intro h
    obtain ⟨a, ha, same⟩ := List.mem_map.1 h
    have : some a = some m := by
      rw [← EncryptionMethod.ofName?_name a, same, EncryptionMethod.ofName?_name]
    exact Option.some.inj this ▸ ha
  · exact fun h => List.mem_map.2 ⟨m, h, rfl⟩

end Policy

end TokenCrypto
