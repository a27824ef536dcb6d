/-!
# Octet strings

All that this library signs, seals, derives or compresses is a string of octets, kept as a list so
that statements about it are statements about lists.

* `Bytes.length_ofNat`: a big-endian field has exactly the width it was asked for.
* `Bytes.toNat_ofNat`: a number that fits its field is read back from it.
* `Bytes.zeroed_eq`: overwriting octet by octet leaves nothing but zeros.
* `Bytes.gatheredUntil_eq_zero_iff`: gathered differences tell, so far, whether two texts are equal.
* `Bytes.equalThroughout_eq_true_iff`: at the end they tell it of the whole texts.
-/

namespace TokenCrypto

/-- A string of octets. -/
abbrev Bytes := List UInt8

namespace Bytes

/-! ## Big-endian fields -/

/-- The low `width` octets of `n`, the most significant first. -/
def ofNat : Nat → Nat → Bytes
  | 0, _ => []
  | width + 1, n => UInt8.ofNat (n >>> (8 * width)) :: ofNat width n

/-- The number whose octets, the most significant first, are given. -/
def toNat (bytes : Bytes) : Nat :=
  bytes.foldl (fun n b => 256 * n + b.toNat) 0

@[simp] theorem length_ofNat (width n : Nat) : (ofNat width n).length = width := by
  induction width with
  | zero => rfl
  | succ width ih => simp [ofNat, ih]

/-- Reading on from `n` shifts `n` past what is read. -/
theorem foldl_toNat (bytes : Bytes) (n : Nat) :
    bytes.foldl (fun n b => 256 * n + b.toNat) n = n <<< (8 * bytes.length) + toNat bytes := by
  induction bytes generalizing n with
  | nil => simp [toNat]
  | cons b rest ih =>
    have step : (8 * (b :: rest).length) = 8 + 8 * rest.length := by
      rw [List.length_cons]
      omega
    simp only [toNat, List.foldl_cons]
    rw [ih, ih (256 * 0 + b.toNat), step]
    simp only [Nat.shiftLeft_eq, Nat.pow_add, Nat.add_mul, Nat.mul_zero, Nat.zero_add]
    rw [Nat.mul_comm 256 n, Nat.mul_assoc, Nat.add_assoc]

/-- The first octet is shifted past the rest. -/
theorem toNat_cons (b : UInt8) (rest : Bytes) :
    toNat (b :: rest) = b.toNat <<< (8 * rest.length) + toNat rest := by
  have := foldl_toNat rest (256 * 0 + b.toNat)
  simpa [toNat] using this

/-- A field holds the low bits of its number. -/
theorem toNat_ofNat_mod (width n : Nat) :
    toNat (ofNat width n) = n % 1 <<< (8 * width) := by
  induction width with
  | zero => simp [ofNat, toNat, Nat.mod_one]
  | succ width ih =>
    have step : 8 * (width + 1) = 8 * width + 8 := by omega
    have split := Nat.mod_mul (x := n) (a := 2 ^ (8 * width)) (b := 2 ^ 8)
    rw [ofNat, toNat_cons, ih, length_ofNat, UInt8.toNat_ofNat', step]
    simp only [Nat.shiftLeft_eq, Nat.shiftRight_eq_div_pow, Nat.one_mul, Nat.pow_add]
    rw [split, Nat.mul_comm (2 ^ (8 * width))]
    exact Nat.add_comm _ _

/-- A number that fits its field is read back. -/
theorem toNat_ofNat {width n : Nat} (h : n < 1 <<< (8 * width)) : toNat (ofNat width n) = n := by
  rw [toNat_ofNat_mod, Nat.mod_eq_of_lt h]

theorem ofNat_inj {width m n : Nat} (hm : m < 1 <<< (8 * width)) (hn : n < 1 <<< (8 * width))
    (h : ofNat width m = ofNat width n) : m = n := by
  rw [← toNat_ofNat hm, h, toNat_ofNat hn]

/-! ## Overwriting -/

/-- The octets overwritten with zero, one after the other. -/
def zeroed (bytes : Bytes) : Bytes :=
  (List.range bytes.length).foldl (fun buffer i => buffer.set i 0) bytes

/-- What has been passed is zero, and what is ahead is as it was. -/
theorem zeroed_until (bytes : Bytes) {passed : Nat} (inside : passed ≤ bytes.length) :
    (List.range passed).foldl (fun buffer i => buffer.set i 0) bytes =
      List.replicate passed 0 ++ bytes.drop passed := by
  induction passed with
  | zero => rfl
  | succ passed ih =>
    have ahead : bytes.drop passed = bytes[passed] :: bytes.drop (passed + 1) :=
      List.drop_eq_getElem_cons inside
    rw [List.range_succ, List.foldl_append, ih (by omega), ahead, List.foldl_cons, List.foldl_nil,
      List.set_append_right _ _ (Nat.le_of_eq List.length_replicate), List.length_replicate,
      Nat.sub_self, List.set_cons_zero, List.replicate_succ', List.append_assoc]
    rfl

@[simp] theorem zeroed_eq (bytes : Bytes) : zeroed bytes = List.replicate bytes.length 0 := by
  rw [zeroed, zeroed_until bytes (Nat.le_refl _), List.drop_length, List.append_nil]

theorem eq_zero_of_mem_zeroed {bytes : Bytes} {octet : UInt8} (mem : octet ∈ bytes.zeroed) :
    octet = 0 := by
  rw [zeroed_eq] at mem
  exact List.eq_of_mem_replicate mem

/-! ## Blocks -/

/-- The text cut into blocks of `size` octets; the last may be shorter. -/
def blocks (size : Nat) (bytes : Bytes) : List Bytes :=
  if _h : 0 < size ∧ bytes ≠ [] then
    bytes.take size :: blocks size (bytes.drop size)
  else []
termination_by bytes.length
decreasing_by
  have := List.length_pos_iff.2 _h.2
  simp only [List.length_drop]
  omega

@[simp] theorem blocks_nil (size : Nat) : blocks size [] = [] := by
  rw [blocks]; simp

/-- The blocks of a text that is not empty are its first `size` octets and the blocks of the rest.
-/
theorem blocks_of_ne_nil {size : Nat} {bytes : Bytes} (hs : 0 < size) (h : bytes ≠ []) :
    blocks size bytes = bytes.take size :: blocks size (bytes.drop size) := by
  rw [blocks, dif_pos ⟨hs, h⟩]

/-! ## Exclusive or -/

/-- Octet by octet exclusive or, as long as the shorter of the two. -/
def xor (a b : Bytes) : Bytes := List.zipWith (· ^^^ ·) a b

@[simp] theorem length_xor (a b : Bytes) : (xor a b).length = min a.length b.length := by
  simp [xor]

/-- Masking twice with a mask that is long enough gives the text back. -/
theorem xor_xor_cancel (a mask : Bytes) (h : a.length ≤ mask.length) :
    xor (xor a mask) mask = a := by
  induction a generalizing mask with
  | nil => simp [xor]
  | cons x a ih =>
    cases mask with
    | nil => simp at h
    | cons m mask =>
      have := ih mask (by simpa using h)
      simp only [xor, List.zipWith_cons_cons, List.cons.injEq] at *
      exact ⟨by rw [UInt8.xor_assoc, UInt8.xor_self, UInt8.xor_zero], this⟩

/-! ## Comparison that looks at every octet -/

/-- Whether two texts are equal, found by gathering the differences of all octets, so that the work
depends on the length of `expected` alone; against a text of another length `expected` is compared
with itself, and the difference of the lengths decides. -/
def equalThroughout (expected actual : Bytes) : Bool :=
  let other := if actual.length = expected.length then actual else expected
  let pairs := expected.zip other
  pairs.foldl (fun gathered p => gathered ||| (p.1 ^^^ p.2).toNat)
    (expected.length ^^^ actual.length) == 0

/-- The pairs that are looked at, in order: each octet of `expected`, beside the one of `actual` in
its place or, against a text of another length, beside itself. -/
def lookedAt (expected actual : Bytes) : List (UInt8 × UInt8) :=
  expected.zip (if actual.length = expected.length then actual else expected)

/-- What has been gathered when so many pairs have been looked at. The difference of the lengths is
there from the start. -/
def gatheredUntil (expected actual : Bytes) (seen : Nat) : Nat :=
  ((lookedAt expected actual).take seen).foldl
    (fun gathered p => gathered ||| (p.1 ^^^ p.2).toNat) (expected.length ^^^ actual.length)

@[simp] theorem map_fst_lookedAt (expected actual : Bytes) :
    (lookedAt expected actual).map Prod.fst = expected := by
  unfold lookedAt
  split
  case isTrue length_eq => exact List.map_fst_zip (Nat.le_of_eq length_eq.symm)
  case isFalse => exact List.map_fst_zip (Nat.le_refl _)

@[simp] theorem map_snd_lookedAt (expected actual : Bytes) :
    (lookedAt expected actual).map Prod.snd =
      if actual.length = expected.length then actual else expected := by
  unfold lookedAt
  split
  case isTrue length_eq => exact List.map_snd_zip (Nat.le_of_eq length_eq)
  case isFalse => exact List.map_snd_zip (Nat.le_refl _)

@[simp] theorem length_lookedAt (expected actual : Bytes) :
    (lookedAt expected actual).length = expected.length := by
  rw [← List.length_map Prod.fst, map_fst_lookedAt]

/-- The verdict falls when all pairs have been looked at. -/
theorem equalThroughout_eq (expected actual : Bytes) :
    equalThroughout expected actual =
      (gatheredUntil expected actual expected.length == 0) := by
  rw [gatheredUntil, ← length_lookedAt expected actual, List.take_length, length_lookedAt]
  rfl

theorem eq_of_xor_eq_zero {m n : Nat} (h : m ^^^ n = 0) : m = n := by
  have back : m ^^^ (m ^^^ n) = n := by rw [← Nat.xor_assoc, Nat.xor_self, Nat.zero_xor]
  rw [h, Nat.xor_zero] at back
  exact back

/-- Nothing was gathered exactly if there was nothing to begin with and every pair is of equals. -/
theorem gathered_eq_zero_iff (pairs : List (UInt8 × UInt8)) (n : Nat) :
    pairs.foldl (fun gathered p => gathered ||| (p.1 ^^^ p.2).toNat) n = 0 ↔
      n = 0 ∧ ∀ p ∈ pairs, p.1 = p.2 := by
  induction pairs generalizing n with
  | nil => simp
  | cons p rest ih =>
    have octet : (p.1 ^^^ p.2).toNat = 0 ↔ p.1 = p.2 := by
      rw [show (0 : Nat) = (0 : UInt8).toNat from rfl, UInt8.toNat_inj, UInt8.xor_eq_zero_iff]
    rw [List.foldl_cons, ih, Nat.or_eq_zero_iff, octet, List.forall_mem_cons, and_assoc]

/-- Texts of one length are equal exactly if their octets are, pair by pair. -/
theorem forall_mem_zip_eq_iff {a b : Bytes} (length_eq : b.length = a.length) :
    (∀ p ∈ a.zip b, p.1 = p.2) ↔ a = b := by
  induction a generalizing b with
  | nil => simp [List.length_eq_zero_iff.1 length_eq]
  | cons x a ih =>
    cases b with
    | nil => cases length_eq
    | cons y b =>
      rw [List.zip_cons_cons, List.forall_mem_cons, ih (Nat.succ.inj length_eq), List.cons.injEq]

/-- Nothing has been gathered so far exactly if the lengths agree and so do the octets so far: what
has been gathered once is never lost. -/
theorem gatheredUntil_eq_zero_iff (expected actual : Bytes) (seen : Nat) :
    gatheredUntil expected actual seen = 0 ↔
      expected.length = actual.length ∧ expected.take seen = actual.take seen := by
  have lengths : expected.length ^^^ actual.length = 0 ↔ expected.length = actual.length :=
    ⟨eq_of_xor_eq_zero, fun length_eq => by rw [length_eq, Nat.xor_self]⟩
  rw [gatheredUntil, gathered_eq_zero_iff, lengths]
  refine and_congr_right fun length_eq => ?_
  -- With the lengths equal each octet stands beside its counterpart, and a walk that is cut short
  -- is one along shorter texts.
  rw [lookedAt, if_pos length_eq.symm, List.zip_eq_zipWith, List.take_zipWith,
    ← List.zip_eq_zipWith]
  exact forall_mem_zip_eq_iff (by simp only [List.length_take, length_eq])

/-- The gathered differences tell whether two texts are equal. -/
theorem equalThroughout_eq_true_iff (expected actual : Bytes) :
    equalThroughout expected actual = true ↔ expected = actual := by
  rw [equalThroughout_eq, beq_iff_eq, gatheredUntil_eq_zero_iff]
  constructor
  · rintro ⟨length_eq, same⟩
    rwa [List.take_length, length_eq, List.take_length] at same
  · rintro rfl
    exact ⟨rfl, rfl⟩

/-- The verdict does not depend on which of two texts is walked along. -/
theorem equalThroughout_comm (expected actual : Bytes) :
    equalThroughout expected actual = equalThroughout actual expected := by
  rw [Bool.eq_iff_iff, equalThroughout_eq_true_iff, equalThroughout_eq_true_iff, eq_comm]

end Bytes

end TokenCrypto
