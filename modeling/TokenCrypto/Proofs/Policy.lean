import TokenCrypto.Error
import TokenCrypto.Policy

/-!
# Policies as they were asked for

A policy accepts the names that it was asked to accept, neither more nor fewer, and bounds texts as
it was asked to. Since the names alone decide what is accepted, requests that differ in the bound
have policies that differ in the bound.

* `Policy.mem_names_iff`: the names that a policy accepts.
* `Policy.limit_of_create`: the bound of a policy.
-/

namespace TokenCrypto

/-- The names that a policy is asked to accept in a part. -/
def PolicyRequest.names (request : PolicyRequest) : PolicyPart → List String
  | .algorithms => request.algorithms.getD PolicyPart.algorithms.known
  | .methods => request.methods.getD PolicyPart.methods.known
  | .compression => request.compression.getD PolicyPart.compression.known

/-- The bound that a policy is asked for. -/
def PolicyRequest.bound (request : PolicyRequest) : Int := request.limit.getD Policy.usualLimit

namespace Policy

/-- The names that a policy accepts in a part. -/
def names (policy : Policy) : PolicyPart → List String
  | .algorithms => policy.algorithmNames
  | .methods => policy.methodNames
  | .compression => policy.compressionNames

section

variable {α : Type} {all : List α} {nameOf : α → String} {part : PolicyPart} {names : List String}

/-- What is selected goes by the names, and each of the names has something that goes by it. -/
theorem mem_map_of_select {selected : List α} (h : select all nameOf part names = .ok selected)
    (name : String) : name ∈ selected.map nameOf ↔ name ∈ names := by
  unfold select at h
  split at h
  · next known =>
    obtain rfl := Except.ok.inj h
    constructor
    · intro mem
      obtain ⟨a, kept, rfl⟩ := List.mem_map.1 mem
      exact List.contains_iff_mem.1 (List.mem_filter.1 kept).2
    · intro mem
      have there := List.contains_iff_mem.1 (List.all_eq_true.1 known name mem)
      obtain ⟨a, inside, rfl⟩ := List.mem_map.1 there
      exact List.mem_map_of_mem (List.mem_filter.2 ⟨inside, List.contains_iff_mem.2 mem⟩)
  · cases h

theorem select_of_selectSome {selected : { xs : List α // xs ≠ [] }}
    (h : selectSome all nameOf part names = .ok selected) :
    select all nameOf part names = .ok selected.val := by
  unfold selectSome at h
  split at h
  · cases h
  · obtain ⟨xs, chosen, h⟩ := bind_eq_ok_iff.1 h
    cases xs with
    | nil => cases h
    | cons x rest =>
      obtain rfl := Except.ok.inj h
      exact chosen

end

/-- What makes a policy the one that is asked for. -/
structure AsAsked (request : PolicyRequest) (policy : Policy) : Prop where
  algorithms : select KeyManagement.all KeyManagement.name .algorithms (request.names .algorithms)
    = .ok policy.algorithms
  methods : select EncryptionMethod.all EncryptionMethod.name .methods (request.names .methods)
    = .ok policy.methods
  compression : select CompressionAlgorithm.all CompressionAlgorithm.name .compression
    (request.names .compression) = .ok policy.compression
  limit : (policy.limit : Int) = request.bound

variable {request : PolicyRequest} {policy : Policy}

theorem asAsked_of_create (asked : create request = .ok policy) : AsAsked request policy := by
  obtain ⟨algorithms, some_algorithms, asked⟩ := bind_eq_ok_iff.1 asked
  obtain ⟨methods, some_methods, asked⟩ := bind_eq_ok_iff.1 asked
  obtain ⟨compression, selected, asked⟩ := bind_eq_ok_iff.1 asked
  obtain ⟨limit, bounded, asked⟩ := bind_eq_ok_iff.1 asked
  obtain rfl := Except.ok.inj asked
  refine ⟨select_of_selectSome some_algorithms, select_of_selectSome some_methods, selected, ?_⟩
  unfold bound at bounded
  split at bounded
  · obtain rfl := Except.ok.inj bounded
    exact Int.toNat_of_nonneg (by omega)
  · cases bounded

/-- A policy accepts the names that it was asked to accept. -/
theorem mem_names_iff (asked : create request = .ok policy) (part : PolicyPart) (name : String) :
    name ∈ policy.names part ↔ name ∈ request.names part := by
  have given := asAsked_of_create asked
  cases part with
  | algorithms => exact mem_map_of_select given.algorithms name
  | methods => exact mem_map_of_select given.methods name
  | compression => exact mem_map_of_select given.compression name

/-- A policy bounds texts as it was asked to. -/
theorem limit_of_create (asked : create request = .ok policy) :
    (policy.limit : Int) = request.bound := (asAsked_of_create asked).limit

/-- The policy with another bound. -/
def withLimit (policy : Policy) (limit : Nat) (pos : 0 < limit) : Policy :=
  { policy with limit, limit_pos := pos }

/-- Requests that differ in the bound have policies that differ in the bound. -/
theorem eq_withLimit_of_create {limit limit' : Option Int} {other : Policy}
    (asked : create { request with limit } = .ok policy)
    (asked' : create { request with limit := limit' } = .ok other) :
    other = policy.withLimit other.limit other.limit_pos := by
  have given := asAsked_of_create asked
  have given' := asAsked_of_create asked'
  have algorithms : other.algorithms = policy.algorithms :=
    Except.ok.inj (given'.algorithms.symm.trans given.algorithms)
  have methods : other.methods = policy.methods :=
    Except.ok.inj (given'.methods.symm.trans given.methods)
  have compression : other.compression = policy.compression :=
    Except.ok.inj (given'.compression.symm.trans given.compression)
  cases other
  cases policy
  subst algorithms methods compression
  rfl

end Policy

end TokenCrypto
