import TokenCrypto.Deflate.Expansion
import TokenCrypto.Deflate.Match
import TokenCrypto.Proofs.Deflate.Token

/-!
# Cut texts expand to themselves

The tokens that a text is cut into expand to that text again. The invariant is that the expansion
has come exactly as far as the cut: a literal adds the octet at its place, and a copy adds what has
been compared with what it repeats. How the cut chooses among copies does not matter.

* `Copy.repeatBack_extract`: a copy adds the octets that stand at its place.
* `fills_tokensOf`: the tokens of a text expand to the text if there is room for it, and are
  stopped for want of room if not.
-/

namespace TokenCrypto.Deflate

variable {text : Array UInt8} {place : Nat}

theorem push_extract {i : Nat} (h : i < text.size) :
    (text.extract 0 i).push text[i] = text.extract 0 (i + 1) := by
  rw [Array.push_extract_getElem h, Nat.zero_min]

theorem size_extract_of_le (h : place ≤ text.size) : (text.extract 0 place).size = place := by
  rw [Array.size_extract]
  omega

/-! ## Copies -/

namespace Copy

theorem add_length_le (copy : Copy text place) : place + copy.length ≤ text.size := by
  have pos := copy.length_pos
  obtain ⟨octet, -, last⟩ :=
    getElem?_of_lt_agreement (show copy.length - 1 < copy.length by omega)
  have := (Array.getElem?_eq_some_iff.1 last).1
  omega

theorem writable (copy : Copy text place) :
    (Token.copy copy.length copy.distance).Writable := by
  have lt := copy.start_lt
  have near := copy.within_reach
  refine ⟨copy.least_le, agreement_le _ _ _ _, ?_, ?_⟩
  · rw [distance]
    omega
  · simp only [reach] at near
    rw [distance]
    omega

/-- A copy adds the octets that stand at its place, also where it reaches into itself. -/
theorem repeatBack_extract (copy : Copy text place) {done count : Nat}
    (h : done + count ≤ copy.length) :
    repeatBack copy.distance count (text.extract 0 (place + done)) =
      text.extract 0 (place + done + count) := by
  -- octets are added one by one, so `done` of them may stand already
  induction count generalizing done with
  | zero => rfl
  | succ count ih =>
    have lt := copy.start_lt
    obtain ⟨octet, earlier, here⟩ := getElem?_of_lt_agreement (show done < copy.length by omega)
    obtain ⟨inside, value⟩ := Array.getElem?_eq_some_iff.1 here
    have back : (text.extract 0 (place + done)).getD (place + done - copy.distance) 0 =
        text[place + done] := by
      have source : place + done - copy.distance = copy.start + done := by
        rw [distance]
        omega
      rw [source, Array.getD_eq_getD_getElem?, Array.getElem?_extract, if_pos (by omega),
        Nat.zero_add, earlier, value, Option.getD_some]
    have next := @ih (done + 1) (by omega)
    rw [← Nat.add_assoc] at next
    rw [repeatBack, size_extract_of_le (Nat.le_of_lt inside), back, push_extract inside, next]
    congr 1
    omega

end Copy

/-! ## Expanding under a capacity -/

/-- What has to become of a text under a capacity: it is all there if there is room for it, and if
not, the expansion stops for want of room. -/
def Fills (text : Array UInt8) (capacity : Nat) (e : Expansion) : Prop :=
  if text.size ≤ capacity then e = ⟨text, .ended⟩ else e.stop = .full

theorem fills_of_full {capacity : Nat} {e : Expansion} (h : e.stop = .full)
    (long : capacity < text.size) : Fills text capacity e := by
  rw [Fills, if_neg (Nat.not_le.2 long)]
  exact h

section

variable {capacity : Nat} {rest : List Token}

theorem fills_literal (h : place < text.size) (fits : place ≤ capacity)
    (ih : place + 1 ≤ capacity →
      Fills text capacity (expand (some capacity) (text.extract 0 (place + 1)) rest)) :
    Fills text capacity
      (expand (some capacity) (text.extract 0 place) (.literal text[place] :: rest)) := by
  rw [expand, size_extract_of_le (Nat.le_of_lt h), room]
  rcases Nat.eq_or_lt_of_le fits with full | free
  · rw [if_pos (by omega)]
    exact fills_of_full rfl (by omega)
  · rw [if_neg (by omega), push_extract h]
    exact ih free

theorem fills_copy (copy : Copy text place) (fits : place ≤ capacity)
    (ih : place + copy.length ≤ capacity →
      Fills text capacity (expand (some capacity) (text.extract 0 (place + copy.length)) rest)) :
    Fills text capacity
      (expand (some capacity) (text.extract 0 place)
        (.copy copy.length copy.distance :: rest)) := by
  have pos := copy.length_pos
  have within := copy.add_length_le
  have back : ¬ place < copy.distance := Nat.not_lt.2 (Nat.sub_le _ _)
  have whole : repeatBack copy.distance copy.length (text.extract 0 place) =
      text.extract 0 (place + copy.length) :=
    copy.repeatBack_extract (Nat.le_of_eq (Nat.zero_add _))
  simp only [expand, size_extract_of_le (show place ≤ text.size by omega), room, if_neg back]
  split
  · exact fills_of_full rfl (by omega)
  split
  · exact fills_of_full rfl (by omega)
  · rw [whole]
    exact ih (by omega)

end

/-! ## The tokens of a text -/

section

variable {earlier : Array (Option Nat)} {found : Option (Copy text place)}

theorem writable_of_mem_tokensFrom : ∀ t ∈ tokensFrom text earlier place found, t.Writable := by
  fun_induction tokensFrom text earlier place found with
  | case1 place h ih => exact List.forall_mem_cons.2 ⟨trivial, ih⟩
  | case2 place h copy longer hl ih => exact List.forall_mem_cons.2 ⟨trivial, ih⟩
  | case3 place h copy hl ih => exact List.forall_mem_cons.2 ⟨copy.writable, ih⟩
  | case4 place h => exact fun t ht => nomatch ht

theorem fills_tokensFrom {capacity : Nat} (inside : place ≤ text.size) (fits : place ≤ capacity) :
    Fills text capacity
      (expand (some capacity) (text.extract 0 place) (tokensFrom text earlier place found)) := by
  fun_induction tokensFrom text earlier place found with
  | case1 place h ih => exact fills_literal h fits (ih h)
  | case2 place h copy longer hl ih => exact fills_literal h fits (ih h)
  | case3 place h copy hl ih => exact fills_copy copy fits (ih copy.add_length_le)
  | case4 place h =>
    obtain rfl : place = text.size := by omega
    rw [Fills, if_pos fits, Array.extract_size]
    rfl

end

theorem writable_of_mem_tokensOf (bytes : Bytes) : ∀ t ∈ tokensOf bytes, t.Writable :=
  writable_of_mem_tokensFrom

/-- The tokens of a text expand to the text, as far as there is room for it. -/
theorem fills_tokensOf (bytes : Bytes) (capacity : Nat) :
    Fills bytes.toArray capacity (expand (some capacity) #[] (tokensOf bytes)) := by
  have empty : bytes.toArray.extract 0 0 = #[] := by simp
  rw [← empty]
  exact fills_tokensFrom (Nat.zero_le _) (Nat.zero_le _)

end TokenCrypto.Deflate
