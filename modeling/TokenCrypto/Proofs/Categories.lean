import TokenCrypto.Proofs.Text.Plain

/-!
# Outcomes by category

A rejection has a report, and its category is what a caller goes by; a fault has none. So a step
promises something if each of its outcomes is a result or a rejection of some known categories, and
steps one after the other promise what each of them does.

* `Told.bind`: steps one after the other.
* `told_iff`: what is promised, spelled out.
-/

namespace TokenCrypto

/-- An outcome that is a result, or a rejection in one of the categories. -/
inductive Told {α : Type} (categories : List Category) : Except Error α → Prop
  | ok (a : α) : Told categories (.ok a)
  | rejected {why : Rejection} (h : why.report.category ∈ categories) :
    Told categories (.error (.rejected why))

section

variable {α β : Type} {categories wider : List Category}

theorem Told.reject {why : Rejection} (h : why.report.category ∈ categories) :
    Told categories (reject why : Except Error α) := .rejected h

theorem Told.mono {outcome : Except Error α} (h : Told categories outcome)
    (sub : categories ⊆ wider) : Told wider outcome := by
  cases h with
  | ok a => exact .ok a
  | rejected known => exact .rejected (sub known)

theorem Told.map {outcome : Except Error α} (h : Told categories outcome) (f : α → β) :
    Told categories (outcome.map f) := by
  cases h with
  | ok a => exact .ok (f a)
  | rejected known => exact .rejected known

/-- The second of two steps has to keep the promise only on what the first one gives. -/
theorem Told.bind {first : Except Error α} {next : α → Except Error β}
    (h : Told categories first) (later : ∀ a, first = .ok a → Told categories (next a)) :
    Told categories (first >>= next) := by
  cases h with
  | ok a =>
    rw [ok_bind]
    exact later a rfl
  | rejected known => exact .rejected known

/-- What is promised of an outcome. -/
theorem told_iff {outcome : Except Error α} : Told categories outcome ↔
    (∃ a, outcome = .ok a)
      ∨ ∃ why, outcome = TokenCrypto.reject why ∧ why.report.category ∈ categories := by
  constructor
  · intro h
    cases h with
    | ok a => exact .inl ⟨a, rfl⟩
    | rejected known => exact .inr ⟨_, rfl, known⟩
  · rintro (⟨a, rfl⟩ | ⟨why, rfl, known⟩)
    · exact .ok a
    · exact .reject known

/-! ## Texts on the wire -/

theorem told_wireBytes (text : String) : Told [.validation] (wireBytes text) := by
  unfold wireBytes
  split
  · exact .ok _
  · exact .reject List.mem_cons_self

end

end TokenCrypto
