import TokenCrypto.Proofs.Text.Plain
import TokenCrypto.Header

/-!
# What a Base64URL text stands for

A text stands for octets exactly if its letters are those of the alphabet and their number is not
one more than a multiple of four. Where the number is no multiple of four, the last letter has bits
that belong to no octet. Texts that differ in those bits alone stand for the same octets, and no
others do.

* `Base64Url.decode?_eq_some_iff`: what is read, over the numbers of the letters.
* `Base64Url.sextets_of_ofSextets?`: octets are written without the bits that belong to none.
* `Base64Url.agree_spell_iff`: texts agree if their numbers do without those bits.
-/

namespace TokenCrypto.Base64Url

/-! ## Letters -/

/-- The letters, each at the place of its number. -/
def alphabet : List Char :=
  "ABCDEFGHIJKLMNOPQRSTUVWXYZabcdefghijklmnopqrstuvwxyz0123456789-_".toList

def place (c : Char) : Nat := alphabet.idxOf c

theorem alphabet_eq : alphabet = (List.range 64).map letter := by decide

theorem getElem?_alphabet {n : Nat} (h : n < 64) : alphabet[n]? = some (letter n) := by
  rw [alphabet_eq, List.getElem?_map, List.getElem?_range h, Option.map_some]

theorem length_alphabet : alphabet.length = 64 := by
  rw [alphabet_eq, List.length_map, List.length_range]

theorem place_letter {n : Nat} (h : n < 64) : place (letter n) = n := by
  have nodup : alphabet.Nodup := by decide +kernel
  obtain ⟨inside, at_n⟩ := List.getElem?_eq_some_iff.1 (getElem?_alphabet h)
  rw [place, ← at_n]
  exact nodup.idxOf_getElem n inside

/-- What is read from a letter is its number. -/
theorem letter_of_sextet? {c : Char} {n : Nat} (h : sextet? c = some n) :
    n < 64 ∧ letter n = c := by
  have low : c.toNat < 128 := of_decide_eq_true (isMember_of_sextet? h)
  have all : ∀ k : Fin 128, (sextet? (Char.ofNat k)).all
      fun n => decide (n < 64 ∧ letter n = Char.ofNat k) := by decide +kernel
  have of_c := all ⟨c.toNat, low⟩
  rw [Char.ofNat_toNat, h] at of_c
  exact of_decide_eq_true of_c

theorem letter_place {c : Char} (h : c ∈ alphabet) : place c < 64 ∧ letter (place c) = c := by
  have inside : place c < alphabet.length := List.idxOf_lt_length_of_mem h
  have small : place c < 64 := length_alphabet ▸ inside
  refine ⟨small, Option.some.inj ?_⟩
  rw [← getElem?_alphabet small, List.getElem?_eq_getElem inside]
  exact congrArg some (List.getElem_idxOf inside)

theorem letter_mem_alphabet {n : Nat} (h : n < 64) : letter n ∈ alphabet :=
  List.mem_of_getElem? (getElem?_alphabet h)

/-! ## Texts as numbers -/

/-- The text whose letters have the given numbers. -/
def spell (ns : List Nat) : String := String.ofList (ns.map letter)

theorem encode_eq_spell (bytes : Bytes) : encode bytes = spell (sextets bytes) := rfl

theorem length_spell (ns : List Nat) : (spell ns).length = ns.length := by
  rw [spell, String.length_ofList, List.length_map]

theorem mapM_sextet?_eq_some_iff {cs : List Char} {ns : List Nat} :
    cs.mapM sextet? = some ns ↔ (∀ n ∈ ns, n < 64) ∧ cs = ns.map letter := by
  constructor
  · intro h
    induction cs generalizing ns with
    | nil =>
      obtain rfl : [] = ns := Option.some.inj h
      exact ⟨by simp, rfl⟩
    | cons c cs ih =>
      rw [List.mapM_cons] at h
      obtain ⟨n, first, h⟩ := Option.bind_eq_some_iff.1 h
      obtain ⟨others, read, h⟩ := Option.bind_eq_some_iff.1 h
      obtain rfl := Option.some.inj h
      obtain ⟨small, rfl⟩ := letter_of_sextet? first
      obtain ⟨all_small, rfl⟩ := ih read
      exact ⟨List.forall_mem_cons.2 ⟨small, all_small⟩, rfl⟩
  · rintro ⟨small, rfl⟩
    exact mapM_sextet?_letter ns small

/-- What is read, over the numbers of the letters. -/
theorem decode?_eq_some_iff {text : String} {bytes : Bytes} :
    decode? text = some bytes ↔
      ∃ ns, (∀ n ∈ ns, n < 64) ∧ text = spell ns ∧ ofSextets? ns = some bytes := by
  unfold decode?
  rw [Option.bind_eq_some_iff]
  refine exists_congr fun ns => ?_
  rw [mapM_sextet?_eq_some_iff, and_assoc, spell, ← String.toList_inj, String.toList_ofList]

/-- A text is made of letters of the alphabet if they have numbers. -/
theorem exists_spell_iff {text : String} :
    (∃ ns, (∀ n ∈ ns, n < 64) ∧ text = spell ns) ↔ ∀ c ∈ text.toList, c ∈ alphabet := by
  constructor
  · rintro ⟨ns, small, rfl⟩ c hc
    rw [spell, String.toList_ofList] at hc
    obtain ⟨n, hn, rfl⟩ := List.mem_map.1 hc
    exact letter_mem_alphabet (small n hn)
  · intro letters
    refine ⟨text.toList.map place, ?_, ?_⟩
    · intro n hn
      obtain ⟨c, hc, rfl⟩ := List.mem_map.1 hn
      exact (letter_place (letters c hc)).1
    · have back : text.toList.map (letter ∘ place) = text.toList.map id :=
        List.map_congr_left fun c hc => (letter_place (letters c hc)).2
      rw [spell, List.map_map, back, List.map_id, String.ofList_toList]

/-! ## Numbers as octets -/

theorem ofSextets?_eq_none_iff (ns : List Nat) : ofSextets? ns = none ↔ ns.length % 4 = 1 := by
  fun_induction ofSextets? ns with
  | case1 => simp
  | case2 => simp
  | case3 => simp
  | case4 => simp
  | case5 p q r s rest ih =>
    rw [Option.map_eq_none_iff, ih]
    simp only [List.length_cons]
    omega

theorem length_of_ofSextets? {ns : List Nat} {bytes : Bytes} (h : ofSextets? ns = some bytes) :
    bytes.length = 3 * ns.length / 4 := by
  fun_induction ofSextets? ns generalizing bytes with
  | case1 =>
    obtain rfl := Option.some.inj h
    rfl
  | case2 => cases h
  | case3 p q =>
    obtain rfl := Option.some.inj h
    simp
  | case4 p q r =>
    obtain rfl := Option.some.inj h
    simp
  | case5 p q r s rest ih =>
    obtain ⟨others, read, rfl⟩ := Option.map_eq_some_iff.1 h
    have := ih read
    simp only [List.length_cons]
    omega

/-- The numbers with zeros for the bits that belong to no octet. -/
def trimmed : List Nat → List Nat
  | [] => []
  | [p] => [p]
  | [p, q] => [p, q / 16 * 16]
  | [p, q, r] => [p, q, r / 4 * 4]
  | p :: q :: r :: s :: rest => p :: q :: r :: s :: trimmed rest

/-- Octets are written without the bits that belong to none. -/
theorem sextets_of_ofSextets? {ns : List Nat} (small : ∀ n ∈ ns, n < 64) {bytes : Bytes}
    (h : ofSextets? ns = some bytes) : sextets bytes = trimmed ns := by
  have octet {n : Nat} (h : n < 256) : (UInt8.ofNat n).toNat = n := by
    rw [UInt8.toNat_ofNat', Nat.mod_eq_of_lt h]
  fun_induction ofSextets? ns generalizing bytes with
  | case1 =>
    obtain rfl := Option.some.inj h
    rfl
  | case2 => cases h
  | case3 p q =>
    obtain rfl := Option.some.inj h
    simp only [List.forall_mem_cons] at small
    rw [sextets, trimmed, octet (by omega)]
    simp only [List.cons.injEq, and_true]
    omega
  | case4 p q r =>
    obtain rfl := Option.some.inj h
    simp only [List.forall_mem_cons] at small
    rw [sextets, trimmed, octet (by omega), octet (by omega)]
    simp only [List.cons.injEq, and_true]
    omega
  | case5 p q r s rest ih =>
    obtain ⟨others, read, rfl⟩ := Option.map_eq_some_iff.1 h
    simp only [List.forall_mem_cons] at small
    rw [sextets, trimmed, octet (by omega), octet (by omega), octet (by omega),
      ih small.2.2.2.2 read]
    simp only [List.cons.injEq, and_true]
    omega

/-! ## Texts that stand for the same octets -/

/-- How many low bits of the last letter belong to no octet. -/
def spareBits (length : Nat) : Nat :=
  if length % 4 = 2 then 4 else if length % 4 = 3 then 2 else 0

/-- Of the number in place `i` of so many, what belongs to octets. -/
def kept (length i n : Nat) : Nat :=
  if i + 1 = length then n >>> spareBits length <<< spareBits length else n

/-- A number in a whole group of four is kept as it is. -/
theorem kept_of_lt {length i : Nat} (h : i < length / 4 * 4) (n : Nat) : kept length i n = n := by
  unfold kept
  split
  case isTrue last =>
    have whole : length % 4 = 0 := by omega
    have none_spare : spareBits length = 0 := by rw [spareBits, whole]; rfl
    rw [none_spare, Nat.shiftRight_zero, Nat.shiftLeft_zero]
  case isFalse => rfl

theorem kept_add_four (length i n : Nat) : kept (length + 4) (i + 4) n = kept length i n := by
  have same_spare : spareBits (length + 4) = spareBits length := by
    rw [spareBits, Nat.add_mod_right, spareBits]
  have same_place : i + 4 + 1 = length + 4 ↔ i + 1 = length := by omega
  rw [kept, kept, same_spare, ite_cond_congr (propext same_place)]

theorem kept_shiftRight (length i n : Nat) :
    kept length i n >>> spareBits length = n >>> spareBits length := by
  unfold kept
  split
  case isTrue => rw [Nat.shiftLeft_shiftRight]
  case isFalse => rfl

theorem getElem?_trimmed (ns : List Nat) (i : Nat) :
    (trimmed ns)[i]? = ns[i]?.map (kept ns.length i) := by
  fun_induction trimmed ns generalizing i with
  | case1 => rfl
  | case2 p =>
    rcases i with - | i
    · simp [kept, spareBits]
    · rfl
  | case3 p q =>
    rcases i with - | - | i
    · rfl
    · simp [kept, spareBits, Nat.shiftRight_eq_div_pow, Nat.shiftLeft_eq]
    · rfl
  | case4 p q r =>
    rcases i with - | - | - | i
    · rfl
    · rfl
    · simp [kept, spareBits, Nat.shiftRight_eq_div_pow, Nat.shiftLeft_eq]
    · rfl
  | case5 p q r s rest ih =>
    by_cases first : i < 4
    · -- The first group stands in front of all the rest, so none of its letters is short of bits.
      have whole : kept (rest.length + 4) i = id := funext (kept_of_lt (by omega))
      show _ = Option.map (kept (rest.length + 4) i) _
      rw [whole, Option.map_id]
      rcases i with - | - | - | - | i
      · rfl
      · rfl
      · rfl
      · rfl
      · omega
    · obtain ⟨j, rfl⟩ := Nat.exists_eq_add_of_le' (Nat.not_lt.1 first)
      show (trimmed rest)[j]? = rest[j]?.map (kept (rest.length + 4) (j + 4))
      rw [ih, funext (kept_add_four rest.length j)]

theorem length_trimmed (ns : List Nat) : (trimmed ns).length = ns.length := by
  fun_induction trimmed ns with
  | case1 => rfl
  | case2 => rfl
  | case3 => rfl
  | case4 => rfl
  | case5 p q r s rest ih => simp only [List.length_cons, ih]

/-- In whole groups of four no bits are to spare. -/
theorem trimmed_of_whole {ns : List Nat} (whole : ns.length % 4 = 0) : trimmed ns = ns := by
  refine List.ext_getElem? fun i => ?_
  rw [getElem?_trimmed]
  by_cases inside : i < ns.length
  · have all_kept : kept ns.length i = id := funext (kept_of_lt (by omega))
    rw [all_kept, Option.map_id, id]
  · rw [List.getElem?_eq_none (Nat.not_lt.1 inside), Option.map_none]

/-- Two texts are alike but for the bits of their last letters that belong to no octet. -/
structure Agree (text other : String) : Prop where
  length_eq : text.length = other.length
  front_eq : ∀ i, i + 1 < text.length → text.toList[i]? = other.toList[i]?
  last_eq : (text.toList.map place).getLast?.map (· >>> spareBits text.length) =
    (other.toList.map place).getLast?.map (· >>> spareBits text.length)

theorem places_spell {ns : List Nat} (small : ∀ n ∈ ns, n < 64) :
    (spell ns).toList.map place = ns := by
  have back : ns.map (place ∘ letter) = ns.map id :=
    List.map_congr_left fun n hn => place_letter (small n hn)
  rw [spell, String.toList_ofList, List.map_map, back, List.map_id]

section

variable {ns ms : List Nat} (small : ∀ n ∈ ns, n < 64) (small' : ∀ n ∈ ms, n < 64)

include small small'

theorem trimmed_eq_of_agree (agree : Agree (spell ns) (spell ms)) : trimmed ns = trimmed ms := by
  obtain ⟨length_eq, front, last⟩ := agree
  rw [length_spell, length_spell] at length_eq
  rw [places_spell small, places_spell small', length_spell, List.getLast?_eq_getElem?,
    List.getLast?_eq_getElem?, ← length_eq] at last
  refine List.ext_getElem? fun i => ?_
  rw [getElem?_trimmed, getElem?_trimmed, ← length_eq]
  rcases Nat.lt_trichotomy (i + 1) ns.length with inner | final | beyond
  · have same := congrArg (Option.map place) (front i (by rwa [length_spell]))
    rw [← List.getElem?_map, ← List.getElem?_map, places_spell small, places_spell small'] at same
    rw [same]
  · have shifted : kept ns.length i = (· <<< spareBits ns.length) ∘ (· >>> spareBits ns.length) :=
      funext fun n => if_pos final
    obtain rfl : i = ns.length - 1 := by omega
    rw [shifted, ← Option.map_map, ← Option.map_map, last]
  · rw [List.getElem?_eq_none (by omega), List.getElem?_eq_none (by omega)]

theorem agree_of_trimmed_eq (same : trimmed ns = trimmed ms) : Agree (spell ns) (spell ms) := by
  have length_eq : ns.length = ms.length := by
    rw [← length_trimmed ns, same, length_trimmed]
  have at_place (i : Nat) : ns[i]?.map (kept ns.length i) = ms[i]?.map (kept ns.length i) := by
    rw [← getElem?_trimmed, same, getElem?_trimmed, length_eq]
  constructor
  case length_eq => rwa [length_spell, length_spell]
  case front_eq =>
    intro i inner
    rw [length_spell] at inner
    have whole : kept ns.length i = id := funext fun n => if_neg (by omega)
    have same_number := at_place i
    rw [whole, Option.map_id, id, id] at same_number
    rw [spell, spell, String.toList_ofList, String.toList_ofList, List.getElem?_map,
      List.getElem?_map, same_number]
  case last_eq =>
    have cut : (· >>> spareBits ns.length) ∘ kept ns.length (ns.length - 1) =
        (· >>> spareBits ns.length) := funext (kept_shiftRight ns.length _)
    have same_number :=
      congrArg (Option.map (· >>> spareBits ns.length)) (at_place (ns.length - 1))
    rw [Option.map_map, Option.map_map, cut] at same_number
    rw [places_spell small, places_spell small', length_spell, List.getLast?_eq_getElem?,
      List.getLast?_eq_getElem?, ← length_eq]
    exact same_number

/-- Texts that stand for octets stand for the same ones if they agree. -/
theorem bytes_eq_iff_agree {bytes bytes' : Bytes} (read : ofSextets? ns = some bytes)
    (read' : ofSextets? ms = some bytes') : bytes = bytes' ↔ Agree (spell ns) (spell ms) := by
  have written := sextets_of_ofSextets? small read
  have written' := sextets_of_ofSextets? small' read'
  constructor
  · rintro rfl
    exact agree_of_trimmed_eq small small' (written.symm.trans written')
  · intro agree
    have same : sextets bytes = sextets bytes' := by
      rw [written, written', trimmed_eq_of_agree small small' agree]
    rw [← Option.some_inj, ← ofSextets?_sextets bytes, same, ofSextets?_sextets]

end

/-! ## Reading -/

/-- A text of letters of the alphabet, of a length that octets can have. -/
def Spelled (text : String) : Prop :=
  (∀ c ∈ text.toList, c ∈ alphabet) ∧ text.length % 4 ≠ 1

/-- The texts that stand for octets are those of letters of the alphabet whose number is not one
more than a multiple of four. -/
theorem exists_decode?_iff {text : String} :
    (∃ bytes, decode? text = some bytes) ↔ Spelled text := by
  constructor
  · rintro ⟨bytes, read⟩
    obtain ⟨ns, small, rfl, packed⟩ := decode?_eq_some_iff.1 read
    refine ⟨exists_spell_iff.1 ⟨ns, small, rfl⟩, ?_⟩
    rw [length_spell, ne_eq, ← ofSextets?_eq_none_iff, packed]
    nofun
  · rintro ⟨letters, sized⟩
    obtain ⟨ns, small, rfl⟩ := exists_spell_iff.2 letters
    rw [length_spell, ne_eq, ← ofSextets?_eq_none_iff] at sized
    obtain ⟨bytes, packed⟩ := Option.ne_none_iff_exists'.1 sized
    exact ⟨bytes, decode?_eq_some_iff.2 ⟨ns, small, rfl, packed⟩⟩

theorem length_of_decode? {text : String} {bytes : Bytes} (h : decode? text = some bytes) :
    bytes.length = 3 * text.length / 4 := by
  obtain ⟨ns, -, rfl, packed⟩ := decode?_eq_some_iff.1 h
  rw [length_spell, length_of_ofSextets? packed]

/-- Texts stand for the same octets exactly if they agree. -/
theorem agree_iff {text other : String} {bytes bytes' : Bytes} (read : decode? text = some bytes)
    (read' : decode? other = some bytes') : bytes = bytes' ↔ Agree text other := by
  obtain ⟨ns, small, rfl, packed⟩ := decode?_eq_some_iff.1 read
  obtain ⟨ms, small', rfl, packed'⟩ := decode?_eq_some_iff.1 read'
  exact bytes_eq_iff_agree small small' packed packed'

theorem letters_encode (bytes : Bytes) : ∀ c ∈ (encode bytes).toList, c ∈ alphabet :=
  exists_spell_iff.1 ⟨sextets bytes, sextets_lt bytes, rfl⟩

theorem encode_of_decode?_whole {text : String} {bytes : Bytes} (h : decode? text = some bytes)
    (whole : text.length % 4 = 0) : encode bytes = text := by
  obtain ⟨ns, small, rfl, packed⟩ := decode?_eq_some_iff.1 h
  rw [length_spell] at whole
  rw [encode_eq_spell, sextets_of_ofSextets? small packed, trimmed_of_whole whole]

/-- Octets are written in letters of the alphabet and read back. A text is read exactly if it is
made of such letters, in a number that is not one more than a multiple of four; it stands for three
octets for each four letters, and what is written for them agrees with it. Every other text is
rejected, also one with half of a surrogate pair. Texts stand for the same octets exactly if they
agree. -/
theorem read_up_to_spare_bits :
    (∀ bytes, (∀ c ∈ (encode bytes).toList, c ∈ alphabet) ∧ wireBytes (encode bytes) = .ok bytes)
    ∧ (∀ text, Spelled text → ∃ bytes, wireBytes text = .ok bytes
        ∧ bytes.length = 3 * text.length / 4 ∧ Agree text (encode bytes)
        ∧ (text.length % 4 = 0 → encode bytes = text))
    ∧ (∀ text, ¬ Spelled text → wireBytes text = reject .malformedText
        ∧ Rejection.malformedText.report.category = .validation)
    ∧ (∀ points, JweHeader.optionalBytes (some (.broken points)) = reject .malformedText)
    ∧ ∀ text other, Spelled text → Spelled other →
        (wireBytes text = wireBytes other ↔ Agree text other) := by
  refine ⟨fun bytes => ⟨letters_encode bytes, wireBytes_encode bytes⟩, ?_, ?_, fun _ => rfl, ?_⟩
  · intro text spelled
    obtain ⟨bytes, read⟩ := exists_decode?_iff.2 spelled
    exact ⟨bytes, wireBytes_eq_ok_iff.2 read, length_of_decode? read,
      (agree_iff read (decode?_encode bytes)).1 rfl, encode_of_decode?_whole read⟩
  · intro text not_spelled
    have unread : decode? text = none := by
      rw [← Option.not_isSome_iff_eq_none, Option.isSome_iff_exists, exists_decode?_iff]
      exact not_spelled
    refine ⟨?_, rfl⟩
    rw [wireBytes, unread]
  · intro text other spelled spelled'
    obtain ⟨bytes, read⟩ := exists_decode?_iff.2 spelled
    obtain ⟨bytes', read'⟩ := exists_decode?_iff.2 spelled'
    rw [wireBytes_eq_ok_iff.2 read, wireBytes_eq_ok_iff.2 read', Except.ok.injEq]
    exact agree_iff read read'

/-- The last of two letters has four bits to spare: `R` differs from `Q` in those alone, `g` in
others. One letter stands for no octets. -/
theorem read_up_to_spare_bits_two_letters :
    (Spelled "QR" ∧ Spelled "QQ" ∧ Spelled "Qg")
    ∧ (∃ bytes, wireBytes "QR" = .ok bytes ∧ bytes.length = 1 ∧ Agree "QR" (encode bytes))
    ∧ wireBytes "QR" = wireBytes "QQ" ∧ wireBytes "QR" ≠ wireBytes "Qg"
    ∧ ¬ Spelled "Q" ∧ wireBytes "Q" = reject .malformedText := by
  obtain ⟨-, reads, refuses, -, same⟩ := read_up_to_spare_bits
  have spelled {text : String} (letters : text.toList.all (· ∈ alphabet)) (two : text.length = 2) :
      Spelled text := ⟨by simpa using letters, by omega⟩
  have r : Spelled "QR" := spelled (by decide) rfl
  have q : Spelled "QQ" := spelled (by decide) rfl
  have g : Spelled "Qg" := spelled (by decide) rfl
  have one : ¬ Spelled "Q" := fun h => h.2 rfl
  obtain ⟨bytes, read, length_eq, agree, -⟩ := reads "QR" r
  refine ⟨⟨r, q, g⟩, ⟨bytes, read, length_eq, agree⟩, ?_, ?_, one, (refuses "Q" one).1⟩
  · refine (same "QR" "QQ" r q).2 ⟨rfl, ?_, by decide⟩
    intro i first
    obtain rfl : i = 0 := by
      have : "QR".length = 2 := rfl
      omega
    rfl
  · intro equal
    have := ((same "QR" "Qg" r g).1 equal).last_eq
    revert this
    decide

end TokenCrypto.Base64Url
