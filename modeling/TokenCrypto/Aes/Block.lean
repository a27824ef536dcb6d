import TokenCrypto.Bytes
import TokenCrypto.Aes.Substitution

/-!
# Blocks of AES

AES works on blocks of sixteen octets, seen as four columns of four. The layers of a round that do
not depend on the key are here, each with the layer that undoes it.

* `Block.unmix_mix`, `Block.unshift_shift`, `Block.unsubstitute_substitute`: each layer is undone.
* `Block.ofBytes_toBytes`, `Block.toBytes_ofBytes`: a block is sixteen octets.
-/

namespace TokenCrypto.Aes

/-! ## Doubling in the field of AES -/

/-- Multiplication by x in the field of 256 elements: a bit that leaves on the left comes back as
the field's polynomial. -/
def double (x : UInt8) : UInt8 := (x <<< 1) ^^^ ((x >>> 7) * 0x1b)

private theorem shiftRight_seven (x : UInt8) : x >>> 7 = 0 ∨ x >>> 7 = 1 := by
  have : (x >>> 7).toNat < 2 := by
    have := x.toNat_lt
    simp only [UInt8.toNat_shiftRight, Nat.shiftRight_eq_div_pow]
    show x.toNat / 2 ^ 7 < 2
    omega
  rcases (show (x >>> 7).toNat = 0 ∨ (x >>> 7).toNat = 1 by omega) with h | h
  · exact Or.inl (UInt8.toNat_inj.1 h)
  · exact Or.inr (UInt8.toNat_inj.1 h)

theorem double_xor (x y : UInt8) : double (x ^^^ y) = double x ^^^ double y := by
  have bits : ((x >>> 7) ^^^ (y >>> 7)) * (0x1b : UInt8) =
      ((x >>> 7) * (0x1b : UInt8)) ^^^ ((y >>> 7) * (0x1b : UInt8)) := by
    rcases shiftRight_seven x with hx | hx <;> rcases shiftRight_seven y with hy | hy <;>
      rw [hx, hy] <;> rfl
  simp only [double, UInt8.shiftLeft_xor, UInt8.shiftRight_xor, bits]
  ac_rfl

/-! ## Columns -/

/-- A column of four octets, also a word of the key schedule. -/
structure Column where
  a : UInt8
  b : UInt8
  c : UInt8
  d : UInt8
  deriving DecidableEq, Repr

namespace Column

def add (x y : Column) : Column := ⟨x.a ^^^ y.a, x.b ^^^ y.b, x.c ^^^ y.c, x.d ^^^ y.d⟩

def map (f : UInt8 → UInt8) (x : Column) : Column := ⟨f x.a, f x.b, f x.c, f x.d⟩

/-- MixColumns for one column: the product with the matrix whose rows are turns of 2, 3, 1, 1. -/
def mix (x : Column) : Column :=
  let two := double
  let three (v : UInt8) := double v ^^^ v
  ⟨two x.a ^^^ three x.b ^^^ x.c ^^^ x.d,
   x.a ^^^ two x.b ^^^ three x.c ^^^ x.d,
   x.a ^^^ x.b ^^^ two x.c ^^^ three x.d,
   three x.a ^^^ x.b ^^^ x.c ^^^ two x.d⟩

/-- The product with the matrix that undoes it, whose rows are turns of 14, 11, 13, 9. -/
def unmix (x : Column) : Column :=
  let nine (v : UInt8) := double (double (double v)) ^^^ v
  let eleven (v : UInt8) := double (double (double v)) ^^^ double v ^^^ v
  let thirteen (v : UInt8) := double (double (double v)) ^^^ double (double v) ^^^ v
  let fourteen (v : UInt8) := double (double (double v)) ^^^ double (double v) ^^^ double v
  ⟨fourteen x.a ^^^ eleven x.b ^^^ thirteen x.c ^^^ nine x.d,
   nine x.a ^^^ fourteen x.b ^^^ eleven x.c ^^^ thirteen x.d,
   thirteen x.a ^^^ nine x.b ^^^ fourteen x.c ^^^ eleven x.d,
   eleven x.a ^^^ thirteen x.b ^^^ nine x.c ^^^ fourteen x.d⟩

@[simp] theorem add_add_cancel (x k : Column) : (x.add k).add k = x := by
  simp only [add, UInt8.xor_assoc, UInt8.xor_self, UInt8.xor_zero]

theorem mix_add (x y : Column) : (x.add y).mix = x.mix.add y.mix := by
  simp only [add, mix, double_xor, Column.mk.injEq]
  refine ⟨?_, ?_, ?_, ?_⟩ <;> ac_rfl

theorem unmix_add (x y : Column) : (x.add y).unmix = x.unmix.add y.unmix := by
  simp only [add, unmix, double_xor, Column.mk.injEq]
  refine ⟨?_, ?_, ?_, ?_⟩ <;> ac_rfl

/-- A column is the sum of four with one octet each that is not zero. -/
theorem eq_add_units (x : Column) :
    x = (((⟨x.a, 0, 0, 0⟩ : Column).add ⟨0, x.b, 0, 0⟩).add ⟨0, 0, x.c, 0⟩).add ⟨0, 0, 0, x.d⟩ := by
  simp [add]

private theorem eq_self_of_units {f : Column → Column}
    (additive : ∀ x y : Column, f (x.add y) = (f x).add (f y))
    (units : ∀ v : UInt8, f ⟨v, 0, 0, 0⟩ = ⟨v, 0, 0, 0⟩ ∧ f ⟨0, v, 0, 0⟩ = ⟨0, v, 0, 0⟩ ∧
      f ⟨0, 0, v, 0⟩ = ⟨0, 0, v, 0⟩ ∧ f ⟨0, 0, 0, v⟩ = ⟨0, 0, 0, v⟩) (x : Column) : f x = x := by
  rw [eq_add_units x]
  simp only [additive, (units x.a).1, (units x.b).2.1, (units x.c).2.2.1, (units x.d).2.2.2]

private theorem xor_cancel_left (x y : UInt8) : x ^^^ (x ^^^ y) = y := by
  rw [← UInt8.xor_assoc, UInt8.xor_self, UInt8.zero_xor]

private theorem xor_swap_left (x y z : UInt8) : x ^^^ (y ^^^ z) = y ^^^ (x ^^^ z) := by
  rw [← UInt8.xor_assoc, UInt8.xor_comm x y, UInt8.xor_assoc]

private theorem double_zero : double 0 = 0 := rfl

@[simp] theorem unmix_mix (x : Column) : x.mix.unmix = x :=
  eq_self_of_units (f := fun x => x.mix.unmix) (fun x y => by simp only [mix_add, unmix_add])
    (fun v => by
      simp only [mix, unmix, double_zero, double_xor, UInt8.xor_zero, UInt8.zero_xor,
        UInt8.xor_assoc, UInt8.xor_comm, xor_swap_left, xor_cancel_left, UInt8.xor_self,
        and_self]) x

@[simp] theorem mix_unmix (x : Column) : x.unmix.mix = x :=
  eq_self_of_units (f := fun x => x.unmix.mix) (fun x y => by simp only [mix_add, unmix_add])
    (fun v => by
      simp only [mix, unmix, double_zero, double_xor, UInt8.xor_zero, UInt8.zero_xor,
        UInt8.xor_assoc, UInt8.xor_comm, xor_swap_left, xor_cancel_left, UInt8.xor_self,
        and_self]) x

/-- The column at the front of a string of octets. -/
def ofBytes : Bytes → Column
  | a :: b :: c :: d :: _ => ⟨a, b, c, d⟩
  | _ => ⟨0, 0, 0, 0⟩

def toBytes (x : Column) : Bytes := [x.a, x.b, x.c, x.d]

end Column

/-! ## Blocks -/

/-- A block: four columns. -/
structure Block where
  w : Column
  x : Column
  y : Column
  z : Column
  deriving DecidableEq, Repr

namespace Block

def add (s t : Block) : Block := ⟨s.w.add t.w, s.x.add t.x, s.y.add t.y, s.z.add t.z⟩

def map (f : Column → Column) (s : Block) : Block := ⟨f s.w, f s.x, f s.y, f s.z⟩

def substitute (s : Block) : Block := s.map (Column.map sub)

def unsubstitute (s : Block) : Block := s.map (Column.map invSub)

/-- ShiftRows: row `i` turned left by `i` columns. -/
def shift (s : Block) : Block :=
  ⟨⟨s.w.a, s.x.b, s.y.c, s.z.d⟩, ⟨s.x.a, s.y.b, s.z.c, s.w.d⟩,
   ⟨s.y.a, s.z.b, s.w.c, s.x.d⟩, ⟨s.z.a, s.w.b, s.x.c, s.y.d⟩⟩

/-- Row `i` turned right by `i` columns. -/
def unshift (s : Block) : Block :=
  ⟨⟨s.w.a, s.z.b, s.y.c, s.x.d⟩, ⟨s.x.a, s.w.b, s.z.c, s.y.d⟩,
   ⟨s.y.a, s.x.b, s.w.c, s.z.d⟩, ⟨s.z.a, s.y.b, s.x.c, s.w.d⟩⟩

def mix (s : Block) : Block := s.map Column.mix

def unmix (s : Block) : Block := s.map Column.unmix

@[simp] theorem add_add_cancel (s k : Block) : (s.add k).add k = s := by simp [add]

@[simp] theorem unsubstitute_substitute (s : Block) : s.substitute.unsubstitute = s := by
  simp [substitute, unsubstitute, map, Column.map]

@[simp] theorem unshift_shift (s : Block) : s.shift.unshift = s := rfl

@[simp] theorem unmix_mix (s : Block) : s.mix.unmix = s := by simp [mix, unmix, map]

@[simp] theorem substitute_unsubstitute (s : Block) : s.unsubstitute.substitute = s := by
  simp [substitute, unsubstitute, map, Column.map]

@[simp] theorem shift_unshift (s : Block) : s.unshift.shift = s := rfl

@[simp] theorem mix_unmix (s : Block) : s.unmix.mix = s := by simp [mix, unmix, map]

/-- Sixteen octets as a block, column by column. -/
def ofBytes (bytes : Bytes) : Block :=
  ⟨Column.ofBytes bytes, Column.ofBytes (bytes.drop 4), Column.ofBytes (bytes.drop 8),
   Column.ofBytes (bytes.drop 12)⟩

/-- The octets of a block, column by column. -/
def toBytes (s : Block) : Bytes :=
  s.w.toBytes ++ s.x.toBytes ++ s.y.toBytes ++ s.z.toBytes

@[simp] theorem length_toBytes (s : Block) : s.toBytes.length = 16 := by
  simp [toBytes, Column.toBytes]

@[simp] theorem ofBytes_toBytes (s : Block) : ofBytes s.toBytes = s := rfl

private theorem take_four {bytes : Bytes} (h : 4 ≤ bytes.length) :
    (Column.ofBytes bytes).toBytes = bytes.take 4 := by
  match bytes, h with
  | a :: b :: c :: d :: rest, _ => rfl

/-- Sixteen octets are read back from their block. -/
theorem toBytes_ofBytes {bytes : Bytes} (h : bytes.length = 16) :
    (ofBytes bytes).toBytes = bytes := by
  rw [toBytes, ofBytes, take_four (by omega), take_four (by simp [h]), take_four (by simp [h]),
    take_four (by simp [h])]
  have hz : (bytes.drop 12).take 4 = bytes.drop 12 := List.take_of_length_le (by simp [h])
  have hy : (bytes.drop 8).take 4 ++ bytes.drop 12 = bytes.drop 8 := by
    have := List.take_append_drop 4 (bytes.drop 8)
    rwa [List.drop_drop] at this
  have hx : (bytes.drop 4).take 4 ++ bytes.drop 8 = bytes.drop 4 := by
    have := List.take_append_drop 4 (bytes.drop 4)
    rwa [List.drop_drop] at this
  rw [hz, List.append_assoc, List.append_assoc, hy, hx, List.take_append_drop]

end Block

end TokenCrypto.Aes
