import TokenCrypto.Deflate.Reader

/-!
# Reading bits that were written

A writer is judged by what a reader makes of its bits: `Reader.Reads r bits value` says that the
reader takes exactly these bits, wherever they stand and whatever follows them. Readers that follow
one another read what was written one after the other.

* `Bits.ofBytes_toBytes`: bits that are packed into octets come back, with zeros behind them.
* `Reader.Reads.bind`: reading goes on with what comes behind.
* `Reader.reads_number`: a number that fits its width is read from its bits.
-/

namespace TokenCrypto.Deflate

/-! ## Bits in octets -/

namespace Bits

theorem toNat_lt (bits : Bits) : toNat bits < 1 <<< bits.length := by
  induction bits with
  | nil => exact Nat.zero_lt_one
  | cons b rest ih =>
    have := b.toNat_lt
    rw [List.length_cons, Nat.shiftLeft_succ, toNat]
    omega

theorem ofNat_toNat (width : Nat) {bits : Bits} (h : bits.length ≤ width) :
    ofNat width (toNat bits) = bits ++ List.replicate (width - bits.length) false := by
  induction width generalizing bits with
  | zero =>
    rw [List.length_eq_zero_iff.1 (Nat.le_zero.1 h)]
    rfl
  | succ width ih =>
    cases bits with
    | nil =>
      have tail := @ih [] (Nat.zero_le width)
      simp only [toNat, List.length_nil, Nat.sub_zero, List.nil_append] at tail
      simp only [toNat, ofNat, tail, List.length_nil, Nat.sub_zero, List.nil_append]
      rfl
    | cons b rest =>
      have tail := ih (Nat.le_of_succ_le_succ h)
      have half : (b.toNat + 2 * toNat rest) / 2 = toNat rest := by
        have := b.toNat_lt
        omega
      have low : ((b.toNat + 2 * toNat rest) % 2 == 1) = b := by
        rw [Nat.add_mul_mod_self_left]
        cases b <;> rfl
      simp only [toNat, ofNat, half, low, tail, List.length_cons, Nat.add_sub_add_right,
        List.cons_append]

/-- Bits that are packed into octets come back, with zeros behind them. -/
theorem ofBytes_toBytes (bits : Bits) :
    ∃ fill, ofBytes (toBytes bits) = bits ++ List.replicate fill false := by
  fun_induction toBytes bits with
  | case1 => exact ⟨0, rfl⟩
  | case2 bits ne ih =>
    obtain ⟨fill, ih⟩ := ih
    have short : (bits.take 8).length ≤ 8 := List.length_take_le 8 bits
    have octet : (UInt8.ofNat (toNat (bits.take 8))).toNat = toNat (bits.take 8) := by
      rw [UInt8.toNat_ofNat']
      have := toNat_lt (bits.take 8)
      have := Nat.pow_le_pow_right (show 0 < 2 by decide) short
      rw [Nat.shiftLeft_eq] at *
      exact Nat.mod_eq_of_lt (by omega)
    have front : ofBytes (UInt8.ofNat (toNat (bits.take 8)) :: toBytes (bits.drop 8)) =
        bits.take 8 ++ List.replicate (8 - (bits.take 8).length) false
          ++ (bits.drop 8 ++ List.replicate fill false) := by
      rw [← ih, ofBytes, List.flatMap_cons, octet, ofNat_toNat 8 short, ofBytes]
    rw [front]
    -- only the last octet is filled up, and then nothing is behind it
    rcases Nat.lt_or_ge bits.length 8 with few | many
    · refine ⟨8 - bits.length + fill, ?_⟩
      rw [List.take_of_length_le (by omega), List.drop_eq_nil_of_le (by omega), List.nil_append,
        List.append_assoc, List.replicate_append_replicate]
    · refine ⟨fill, ?_⟩
      rw [List.length_take, Nat.min_eq_left many, Nat.sub_self, List.replicate_zero,
        List.append_nil, ← List.append_assoc, List.take_append_drop]

end Bits

/-! ## What a reader reads -/

namespace Reader

variable {α β : Type}

/-- The reader takes exactly these bits, wherever they stand and whatever follows them, and has the
value then. -/
def Reads (r : Reader α) (bits : Bits) (value : α) : Prop :=
  ∀ place rest, r.runFrom place (bits ++ rest) = .ok value ⟨place + bits.length, rest⟩

theorem reads_done (value : α) : (done value).Reads [] value := fun _ _ => rfl

/-- A second reader goes on where the first one stopped. -/
theorem runFrom_bind {r : Reader α} {f : α → Reader β} {place : Nat} {bits : Bits} {a : α}
    {rest : Cursor} (h : r.runFrom place bits = .ok a rest) :
    (r.bind f).runFrom place bits = (f a).run rest := by
  induction r generalizing place bits with
  | done v =>
    simp only [runFrom, Outcome.ok.injEq] at h
    obtain ⟨rfl, rfl⟩ := h
    rfl
  | damaged why => cases h
  | bit next ih =>
    cases bits with
    | nil => cases h
    | cons b bits => exact ih b h

/-- Readers one after the other read what was written one after the other. -/
theorem Reads.bind {r : Reader α} {f : α → Reader β} {front back : Bits} {a : α} {b : β}
    (hr : r.Reads front a) (hf : (f a).Reads back b) : (r.bind f).Reads (front ++ back) b := by
  intro place rest
  have := hf (place + front.length) rest
  rw [List.append_assoc, runFrom_bind (hr place (back ++ rest)), run, this, List.length_append,
    Nat.add_assoc]

theorem Reads.bind_done {r : Reader α} {f : α → Reader β} {bits : Bits} {a : α} {b : β}
    (hr : r.Reads bits a) (hf : f a = done b) : (r.bind f).Reads bits b := by
  have whole := hr.bind (f := f) (hf ▸ reads_done b)
  rwa [List.append_nil] at whole

theorem Reads.bit {next : Bool → Reader α} {b : Bool} {bits : Bits} {a : α}
    (h : (next b).Reads bits a) : (Reader.bit next).Reads (b :: bits) a := by
  intro place rest
  have := h (place + 1) rest
  rw [List.cons_append, runFrom, this, List.length_cons, Nat.add_assoc, Nat.add_comm 1]

/-- A number that fits its width is read from its bits. -/
theorem reads_number {width n : Nat} (h : n < 1 <<< width) :
    (number width).Reads (Bits.ofNat width n) n := by
  induction width generalizing n with
  | zero =>
    obtain rfl : n = 0 := Nat.lt_one_iff.1 h
    exact reads_done 0
  | succ width ih =>
    rw [Nat.shiftLeft_succ] at h
    have half : n / 2 < 1 <<< width := by omega
    have whole : (n % 2 == 1).toNat + 2 * (n / 2) = n := by
      rcases Nat.mod_two_eq_zero_or_one n with hn | hn <;> simp [hn] <;> omega
    have tail := (ih half).bind_done (f := fun m => done ((n % 2 == 1).toNat + 2 * m))
      (congrArg done whole)
    exact tail.bit

end Reader

end TokenCrypto.Deflate
