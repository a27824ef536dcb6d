import TokenCrypto.Proofs.Derivation.Rounds

/-!
# The life of two keys

CEK and CIK of a composite method are there for one use. Whatever is done with them first, other
than displaying them, wipes them, also when it is given up; from then on nothing is left of them but
their lengths. The display tells the lengths only, so it never changes.

* `KeyPair.getElem?_run`: each step of a run meets the keys that the steps before it leave.
* `KeyPair.Left.step`, `KeyPair.Left.after`: what is left of the keys after one more step, and after
  any steps more.
* `KeyPair.wiped_by_first_use`: what each step of a run leaves of the keys, and what it lets see.
-/

namespace TokenCrypto

namespace KeyPair

open TokenCrypto.Derivation (Fits)

/-! ## Runs -/

/-- The keys after a sequence of steps. -/
def after (pair : KeyPair) (steps : List Step) : KeyPair :=
  steps.foldl (fun keys s => (keys.step s).2) pair

@[simp] theorem length_run (pair : KeyPair) (steps : List Step) :
    (pair.run steps).length = steps.length := by
  induction steps generalizing pair with
  | nil => rfl
  | cons s rest ih => rw [run, List.length_cons, ih, List.length_cons]

/-- Each step of a run meets the keys that the steps before it leave. -/
theorem getElem?_run (pair : KeyPair) (steps : List Step) (i : Nat) :
    (pair.run steps)[i]? = steps[i]?.map (pair.after (steps.take i)).step := by
  induction steps generalizing pair i with
  | nil => rfl
  | cons s rest ih =>
    cases i with
    | zero => rfl
    | succ i => exact ih (pair.step s).2 i

/-! ## What is left of the keys -/

/-- Keys of which nothing is left but their lengths. -/
structure Erased (keys : KeyPair) : Prop where
  content_zero : ∀ octet ∈ keys.content, octet = 0
  integrity_zero : ∀ octet ∈ keys.integrity, octet = 0
  wiped : keys.wiped = true

theorem erased_wipe (keys : KeyPair) : keys.wipe.Erased where
  content_zero _ := Bytes.eq_zero_of_mem_zeroed
  integrity_zero _ := Bytes.eq_zero_of_mem_zeroed
  wiped := rfl

/-- What is left of two keys after some steps. -/
structure Left (pair : KeyPair) (steps : List Step) (now : KeyPair) : Prop where
  content_length : now.content.length = pair.content.length
  integrity_length : now.integrity.length = pair.integrity.length
  kept : (∀ s ∈ steps, s = .display) → now = pair
  erased : (∃ s ∈ steps, s ≠ .display) → now.Erased

variable {pair now : KeyPair} {steps : List Step}

theorem Left.start (pair : KeyPair) : Left pair [] pair where
  content_length := rfl
  integrity_length := rfl
  kept _ := rfl
  erased used := by
    obtain ⟨s, mem, -⟩ := used
    cases mem

theorem Left.step (left : Left pair steps now) (s : Step) :
    Left pair (steps ++ [s]) (now.step s).2 := by
  rw [step_snd]
  by_cases displayed : s = .display
  · rw [if_pos displayed]
    refine { left with kept := fun all => left.kept ?_, erased := fun used => left.erased ?_ }
    · exact fun t mem => all t (List.mem_append_left _ mem)
    · obtain ⟨t, mem, t_ne⟩ := used
      rcases List.mem_append.1 mem with earlier | last
      · exact ⟨t, earlier, t_ne⟩
      · exact absurd ((List.mem_singleton.1 last).trans displayed) t_ne
  · rw [if_neg displayed]
    exact
      { content_length := (length_content_wipe now).trans left.content_length
        integrity_length := (length_integrity_wipe now).trans left.integrity_length
        kept := fun all => absurd (all s (List.mem_append_right _ (List.mem_singleton_self s)))
          displayed
        erased := fun _ => erased_wipe now }

theorem Left.after (left : Left pair steps now) (more : List Step) :
    Left pair (steps ++ more) (now.after more) := by
  induction more generalizing steps now with
  | nil => rwa [List.append_nil]
  | cons s rest ih =>
    rw [List.append_cons steps s rest]
    exact ih (left.step s)

/-! ## What is seen of the keys -/

/-- What a step lets see of two keys, when others have come before it. -/
inductive Seen (pair : KeyPair) (before : List Step) : Step → Sight → Prop where
  | wipe : Seen pair before .wipe .nothing
  | look {keys : KeyPair} : Left pair before keys →
      Seen pair before .look (.keys keys.content keys.integrity)
  | giveUp (why : String) : Seen pair before (.giveUp why) (.givenUp why)
  | display : Seen pair before .display (.text pair.display)

theorem Left.seen (left : Left pair steps now) (s : Step) : Seen pair steps s (now.step s).1 := by
  cases s with
  | wipe => exact .wipe
  | look => exact .look left
  | giveUp why => exact .giveUp why
  | display =>
    show Seen pair steps .display (.text now.display)
    rw [display_eq_of_length left.content_length left.integrity_length]
    exact .display

/-! ## Keys that have been derived -/

/-- CEK and CIK as they come from a secret. -/
structure Fresh (method : CompositeMethod) (secret partyU partyV : Material) (pair : KeyPair) :
    Prop where
  content_derived : Derivation.derive method.hash secret contentLabel method.name partyU partyV
    method.contentBits = .ok pair.content
  integrity_derived : Derivation.derive method.hash secret integrityLabel method.name partyU partyV
    method.integrityBits = .ok pair.integrity
  not_wiped : pair.wiped = false

theorem fresh_of_deriveFor {method : CompositeMethod} {secret partyU partyV : Material}
    (h : deriveFor method.name secret partyU partyV = .ok pair) :
    Fresh method secret partyU partyV pair := by
  rw [deriveFor_name] at h
  obtain ⟨content, content_derived, h⟩ := bind_eq_ok_iff.1 h
  obtain ⟨integrity, integrity_derived, h⟩ := bind_eq_ok_iff.1 h
  cases h
  exact ⟨content_derived, integrity_derived, rfl⟩

/-- Every composite method gives CEK and CIK from a secret of octets, and keys that have been
derived go through any steps in this way. They keep their lengths. As long as they have been
displayed only they are what has been derived; after any other step, and whatever comes behind it,
all their octets are zero and they are marked as wiped. A look shows the keys as the steps before it
have left them, what makes a use be given up comes through, and the display is the same at every
time, since it is the same for all keys of these lengths. -/
theorem wiped_by_first_use (method : CompositeMethod) :
    (∀ {secret : Material} {bytes : Bytes} (partyU partyV : Option Bytes),
      secret.bytes? = some bytes → Fits (partyU.getD []) → Fits (partyV.getD []) →
      ∃ pair, deriveFor method.name secret (.ofBytes? partyU) (.ofBytes? partyV) = .ok pair)
    ∧ ∀ {secret partyU partyV : Material} {pair : KeyPair},
      deriveFor method.name secret partyU partyV = .ok pair →
      Fresh method secret partyU partyV pair
      ∧ (∀ steps : List Step, (pair.run steps).length = steps.length
        ∧ ∀ (i : Nat) (s : Step), steps[i]? = some s →
          ∃ sight now, (pair.run steps)[i]? = some (sight, now)
            ∧ Left pair (steps.take (i + 1)) now ∧ Seen pair (steps.take i) s sight)
      ∧ ∀ other : KeyPair, other.content.length = pair.content.length →
        other.integrity.length = pair.integrity.length → other.display = pair.display := by
  refine ⟨?_, ?_⟩
  · intro secret bytes partyU partyV given fitsU fitsV
    obtain ⟨pair, derived, -⟩ := KeyInfo.exists_pair given method partyU partyV fitsU fitsV
    exact ⟨pair, derived⟩
  · intro secret partyU partyV pair derived
    refine ⟨fresh_of_deriveFor derived, ?_, fun _ => display_eq_of_length⟩
    refine fun steps => ⟨length_run pair steps, ?_⟩
    intro i s at_i
    have before : Left pair (steps.take i) (pair.after (steps.take i)) :=
      (Left.start pair).after (steps.take i)
    have taken : steps.take (i + 1) = steps.take i ++ [s] := by
      rw [List.take_add_one, at_i, Option.toList_some]
    refine ⟨_, ((pair.after (steps.take i)).step s).2, ?_, ?_, before.seen s⟩
    · rw [getElem?_run, at_i]
      rfl
    · rw [taken]
      exact before.step s

/-- Keys are displayed, looked at, used in vain, looked at once more and displayed again. The first
look shows what has been derived, the second one zeros of the same lengths, and the last display is
that of the fresh keys. -/
theorem wiped_by_first_use_in_five_steps :
    ∃ pair zeros : KeyPair, ∃ run : List (Sight × KeyPair),
      deriveFor "A128CBC-HS256" (.buffer [7]) (.ofBytes? none) (.ofBytes? (some [])) = .ok pair
      ∧ pair.run [.display, .look, .giveUp "why", .look, .display] = run
      ∧ run[1]?.map Prod.fst = some (.keys pair.content pair.integrity)
      ∧ run[2]?.map Prod.fst = some (.givenUp "why")
      ∧ run[3]?.map Prod.fst = some (.keys zeros.content zeros.integrity)
      ∧ run[4]?.map Prod.fst = some (.text pair.display)
      ∧ zeros.Erased ∧ zeros.content.length = pair.content.length := by
  have given : (Material.buffer [7]).bytes? = some [7] := rfl
  have fits : Fits [] := by unfold Fits; decide
  obtain ⟨pair, derived⟩ := (wiped_by_first_use .a128cbcHs256).1 none (some []) given fits fits
  obtain ⟨-, lives, -⟩ := (wiped_by_first_use .a128cbcHs256).2 derived
  let steps : List Step := [.display, .look, .giveUp "why", .look, .display]
  obtain ⟨_, _, first, -, first_look⟩ := (lives steps).2 1 .look rfl
  obtain ⟨_, _, second, -, given_up⟩ := (lives steps).2 2 (.giveUp "why") rfl
  obtain ⟨_, _, third, -, second_look⟩ := (lives steps).2 3 .look rfl
  obtain ⟨_, _, fourth, -, displayed⟩ := (lives steps).2 4 .display rfl
  cases given_up
  cases displayed
  cases first_look with
  | look fresh =>
    cases fresh.kept (by decide)
    cases second_look with
    | @look zeros left =>
      have used : ∃ s ∈ steps.take 3, s ≠ .display := ⟨.look, by decide, by decide⟩
      exact ⟨pair, zeros, _, derived, rfl, congrArg _ first, congrArg _ second, congrArg _ third,
        congrArg _ fourth, left.erased used, left.content_length⟩

end KeyPair

end TokenCrypto
