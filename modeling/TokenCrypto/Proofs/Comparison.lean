import TokenCrypto.Material.Octets

/-!
# Comparison without a shortcut

A tag is compared with the one that was worked out by walking along the latter to its end, wherever
the two differ. What is gathered on the way is never lost, and it begins with the difference of the
lengths; so the verdict is the one of a plain comparison, and the two sides can be exchanged
although only one of them is walked along.

* `Bytes.walked`: however far a walk has come, nothing has been gathered exactly if all agrees so
  far.
* `Material.equals_tells_same_octets`: the verdict on two values that hold octets.
-/

namespace TokenCrypto

namespace Bytes

/-- A verdict found by walking along `expected`. Each of its octets is looked at once and in order,
beside the one of `actual` in its place or, if the lengths differ, beside itself. At any time
nothing has been gathered exactly if the lengths agree and so do the octets so far, and the verdict
is that nothing has been gathered at the end. -/
structure Walked (expected actual : Bytes) (verdict : Bool) : Prop where
  along : (lookedAt expected actual).map Prod.fst = expected
  beside : (lookedAt expected actual).map Prod.snd =
    if actual.length = expected.length then actual else expected
  so_far : ∀ seen, gatheredUntil expected actual seen = 0 ↔
    expected.length = actual.length ∧ expected.take seen = actual.take seen
  at_end : verdict = true ↔ gatheredUntil expected actual expected.length = 0

theorem walked (expected actual : Bytes) :
    Walked expected actual (equalThroughout expected actual) where
  along := map_fst_lookedAt expected actual
  beside := map_snd_lookedAt expected actual
  so_far := gatheredUntil_eq_zero_iff expected actual
  at_end := by rw [equalThroughout_eq, beq_iff_eq]

end Bytes

namespace Material

/-- Octets and buffers are compared without a fault, and with the same verdict whichever of the two
is walked along: that they have the same length and the same octet in each place. -/
theorem equals_tells_same_octets {expected actual : Material} {a b : Bytes}
    (expected_bytes : expected.bytes? = some a) (actual_bytes : actual.bytes? = some b) :
    ∃ verdict, expected.equals actual = .ok verdict ∧ actual.equals expected = .ok verdict
      ∧ (verdict = true ↔
          a.length = b.length ∧ ∀ (i : Nat) (ha : i < a.length) (hb : i < b.length), a[i] = b[i])
      ∧ a.Walked b verdict ∧ b.Walked a verdict := by
  have exchanged : Bytes.equalThroughout b a = Bytes.equalThroughout a b :=
    Bytes.equalThroughout_comm b a
  refine ⟨Bytes.equalThroughout a b, equals_of_bytes expected_bytes actual_bytes, ?_, ?_,
    Bytes.walked a b, ?_⟩
  · rw [equals_of_bytes actual_bytes expected_bytes, exchanged]
  · rw [Bytes.equalThroughout_eq_true_iff, List.ext_getElem_iff]
  · rw [← exchanged]
    exact Bytes.walked b a

/-- Where two octets have changed places, their differences are the same and do not cancel. Where a
text has only been continued, a walk looks at nothing but equals, and the lengths alone decide. -/
theorem equals_tells_same_octets_exchanged :
    (buffer [1, 2]).equals (octets [2, 1]) = .ok false
    ∧ (octets [2, 1]).equals (buffer [1, 2]) = .ok false
    ∧ (1 : UInt8) ^^^ 2 = 2 ^^^ 1
    ∧ (octets [1, 2]).equals (buffer [1, 2, 3]) = .ok false
    ∧ (buffer [1, 2, 3]).equals (octets [1, 2]) = .ok false
    ∧ Bytes.lookedAt [1, 2] [1, 2, 3] = [(1, 1), (2, 2)]
    ∧ Bytes.gatheredUntil [1, 2] [1, 2, 3] 2 = 2 ^^^ 3 := by
  have buffered : (buffer [1, 2]).bytes? = some [1, 2] := rfl
  have crossed : (octets [2, 1]).bytes? = some [2, 1] := rfl
  have plain : (octets [1, 2]).bytes? = some [1, 2] := rfl
  have continued : (buffer [1, 2, 3]).bytes? = some [1, 2, 3] := rfl
  obtain ⟨verdict, forth, back, same, -, -⟩ := equals_tells_same_octets buffered crossed
  obtain ⟨verdict', forth', back', same', -, -⟩ := equals_tells_same_octets plain continued
  have differ : verdict = false := by
    rw [Bool.eq_false_iff, ne_eq, same]
    rintro ⟨-, octets_eq⟩
    exact absurd (octets_eq 0 (by decide) (by decide)) (by decide)
  have differ' : verdict' = false := by
    rw [Bool.eq_false_iff, ne_eq, same']
    rintro ⟨length_eq, -⟩
    exact absurd length_eq (by decide)
  subst differ differ'
  exact ⟨forth, back, by decide, forth', back', by decide, by decide⟩

end Material

end TokenCrypto
