import Std.Data.HashMap
import TokenCrypto.Deflate.Token

/-!
# Finding repetitions

A text is cut into literals and copies from left to right. Where the next three octets have occurred
before, the text is compared with what followed them then, latest occurrence first, and a copy
stands for as much as agrees. A short copy gives way to a longer one that begins one place on; the
octet between is a literal then.

The occurrences come from a table that the cut does not trust: a `Copy` holds that what it stands
for has been compared. How far back and how long the cut looks bears on the size of the result
alone.

* `getElem?_of_lt_agreement`: octets that are counted as agreeing do agree.
-/

namespace TokenCrypto.Deflate

/-! ## Measures -/

def leastCopy : Nat := 3

def greatestCopy : Nat := 258

/-- The greatest distance at which the cut looks for a copy. It keeps clear of the greatest distance
that can be written by the length of a copy and a few octets more. -/
def reach : Nat := 32506

/-- The greatest distance of a shortest copy: from farther away it is no gain. -/
def shortReach : Nat := 4096

/-- How many occurrences are compared. -/
def patience : Nat := 128

/-- How many occurrences are compared when a good copy is at hand already. -/
def shortPatience : Nat := 32

/-- A copy of this length is good. -/
def goodLength : Nat := 8

/-- A copy of this length does not give way. -/
def firmLength : Nat := 16

/-- A copy of this length ends the comparing. -/
def enoughLength : Nat := 128

/-! ## Comparing -/

/-- How many octets agree from two places on, `budget` of them at most. -/
def agreement (text : Array UInt8) (earlier later : Nat) : Nat → Nat
  | 0 => 0
  | budget + 1 =>
    match text[earlier]?, text[later]? with
    | some x, some y =>
      if x = y then agreement text (earlier + 1) (later + 1) budget + 1 else 0
    | _, _ => 0

theorem agreement_le (text : Array UInt8) (earlier later budget : Nat) :
    agreement text earlier later budget ≤ budget := by
  induction budget generalizing earlier later with
  | zero => exact Nat.le_refl 0
  | succ budget ih =>
    have := ih (earlier + 1) (later + 1)
    unfold agreement
    split
    · split <;> omega
    · omega

/-- Octets that are counted as agreeing do agree. -/
theorem getElem?_of_lt_agreement {text : Array UInt8} {earlier later budget i : Nat}
    (h : i < agreement text earlier later budget) :
    ∃ octet, text[earlier + i]? = some octet ∧ text[later + i]? = some octet := by
  induction budget generalizing earlier later i with
  | zero => exact absurd h (Nat.not_lt_zero i)
  | succ budget ih =>
    unfold agreement at h
    split at h
    · next x y hx hy =>
      split at h
      · next same =>
        subst same
        cases i with
        | zero => exact ⟨x, hx, hy⟩
        | succ i =>
          have found := ih (Nat.lt_of_succ_lt_succ h)
          simpa only [Nat.add_assoc, Nat.add_comm 1] using found
      · exact absurd h (Nat.not_lt_zero i)
    · exact absurd h (Nat.not_lt_zero i)

/-! ## Copies -/

/-- What agrees with a text from one of its places on, at an earlier place within reach. The very
first place of a text is never copied from. -/
structure Copy (text : Array UInt8) (place : Nat) where
  start : Nat
  start_pos : 0 < start
  start_lt : start < place
  within_reach : place - start ≤ reach
  least_le : leastCopy ≤ agreement text start place greatestCopy

namespace Copy

variable {text : Array UInt8} {place : Nat}

/-- The length of a copy: all that agrees. -/
def length (copy : Copy text place) : Nat := agreement text copy.start place greatestCopy

def distance (copy : Copy text place) : Nat := place - copy.start

theorem length_pos (copy : Copy text place) : 0 < copy.length :=
  Nat.lt_of_lt_of_le (by decide) copy.least_le

/-- The copy from an earlier place, if there is one. -/
def from? (text : Array UInt8) (place start : Nat) : Option (Copy text place) :=
  if h : (0 < start ∧ start < place) ∧ place - start ≤ reach then
    if least : leastCopy ≤ agreement text start place greatestCopy then
      some ⟨start, h.1.1, h.1.2, h.2, least⟩
    else none
  else none

end Copy

/-- For each place of a text the last place before it with the same three octets. -/
def occurrences (text : Array UInt8) : Array (Option Nat) :=
  let step (acc : Array (Option Nat) × Std.HashMap (UInt8 × UInt8 × UInt8) Nat) (place : Nat) :=
    let key := (text.getD place 0, text.getD (place + 1) 0, text.getD (place + 2) 0)
    (acc.1.push (acc.2.get? key), acc.2.insert key place)
  ((List.range text.size).foldl step (Array.mkEmpty text.size, {})).1

/-- The longest copy that may stand at a place, if one is longer than `least`. The occurrences are
compared in their order from `start` on, `budget` of them at most; of copies of one length the first
is taken. -/
def longest? (text : Array UInt8) (earlier : Array (Option Nat)) (place : Nat) :
    Nat → Option Nat → Nat → Option (Copy text place)
  | budget + 1, some start, least =>
    let before := earlier.getD start none
    match Copy.from? text place start with
    | some copy =>
      let length := copy.length
      if length ≤ least then longest? text earlier place budget before least
      else if enoughLength ≤ length then some copy
      else (longest? text earlier place budget before length).or (some copy)
    | none => longest? text earlier place budget before least
  | _, _, _ => none

/-- The longest copy that may stand at a place. -/
def copyAt? (text : Array UInt8) (earlier : Array (Option Nat)) (place : Nat) :
    Option (Copy text place) :=
  (longest? text earlier place patience (earlier.getD place none) 0).filter fun copy =>
    leastCopy < copy.length ∨ copy.distance ≤ shortReach

/-- The longer copy one place on to which a copy gives way. -/
def longerAfter? (text : Array UInt8) (earlier : Array (Option Nat)) (place : Nat)
    (copy : Copy text place) : Option (Copy text (place + 1)) :=
  let length := copy.length
  if length < firmLength then
    let budget := if goodLength ≤ length then shortPatience else patience
    longest? text earlier (place + 1) budget (earlier.getD (place + 1) none) length
  else none

/-! ## Cutting -/

/-- The tokens of a text from a place on at which the given copy may stand. -/
def tokensFrom (text : Array UInt8) (earlier : Array (Option Nat)) (place : Nat)
    (found : Option (Copy text place)) : List Token :=
  if h : place < text.size then
    match found with
    | none => .literal text[place] :: tokensFrom text earlier (place + 1) (copyAt? text earlier _)
    | some copy =>
      match longerAfter? text earlier place copy with
      | some longer => .literal text[place] :: tokensFrom text earlier (place + 1) (some longer)
      | none =>
        .copy copy.length copy.distance
          :: tokensFrom text earlier (place + copy.length) (copyAt? text earlier _)
  else []
termination_by text.size - place
decreasing_by
  · omega
  · omega
  · have := copy.length_pos
    omega

def tokensOf (bytes : Bytes) : List Token :=
  let text := bytes.toArray
  let earlier := occurrences text
  tokensFrom text earlier 0 (copyAt? text earlier 0)

theorem occurrences_singleton (octet : UInt8) : occurrences #[octet] = #[none] := by
  simp [occurrences, List.range_succ]

/-- In a text of one octet there is nothing to copy. -/
theorem tokensOf_singleton (octet : UInt8) : tokensOf [octet] = [.literal octet] := by
  have none_found (place : Nat) : copyAt? #[octet] #[none] place = none := by
    have no_start : (#[none] : Array (Option Nat)).getD place none = none := by
      cases place <;> simp
    rw [copyAt?, no_start]
    rfl
  show tokensFrom #[octet] (occurrences #[octet]) 0 _ = _
  rw [occurrences_singleton, none_found, tokensFrom, dif_pos (by simp), none_found, tokensFrom]
  rfl

end TokenCrypto.Deflate
