import TokenCrypto.Bytes

/-!
# Padding to whole blocks

The padding of PKCS #7. A plaintext is filled up to a multiple of sixteen octets with one to sixteen
copies of the number of copies. Taking the padding off checks every copy.

* `Padding.unpad?_pad`: the text comes back.
* `Padding.length_pad`: a whole block is added to a text that fills its blocks.
-/

namespace TokenCrypto.Padding

/-- How many octets are added to a text of this length. -/
def count (length : Nat) : Nat := 16 - length % 16

def pad (bytes : Bytes) : Bytes :=
  bytes ++ List.replicate (count bytes.length) (UInt8.ofNat (count bytes.length))

/-- The plaintext without its padding, if the end of `bytes` is one. -/
def unpad? (bytes : Bytes) : Option Bytes :=
  match bytes.getLast? with
  | none => none
  | some last =>
    let kept := bytes.length - last.toNat
    if 1 ≤ last.toNat ∧ last.toNat ≤ 16 ∧ last.toNat ≤ bytes.length
        ∧ bytes.drop kept = List.replicate last.toNat last then
      some (bytes.take kept)
    else none

theorem count_pos (length : Nat) : 1 ≤ count length := by
  have := Nat.mod_lt length (show 0 < 16 by decide)
  simp only [count]
  omega

theorem count_le (length : Nat) : count length ≤ 16 := by
  simp only [count]
  omega

/-- A whole block is added to a text that fills its blocks. -/
theorem length_pad (bytes : Bytes) : (pad bytes).length = 16 * (bytes.length / 16 + 1) := by
  have := Nat.mod_lt bytes.length (show 0 < 16 by decide)
  simp only [pad, count, List.length_append, List.length_replicate]
  omega

theorem unpad?_pad (bytes : Bytes) : unpad? (pad bytes) = some bytes := by
  have pos := count_pos bytes.length
  have le := count_le bytes.length
  have back : (UInt8.ofNat (count bytes.length)).toNat = count bytes.length := by
    rw [UInt8.toNat_ofNat']
    exact Nat.mod_eq_of_lt (by omega)
  have last : (pad bytes).getLast? = some (UInt8.ofNat (count bytes.length)) := by
    obtain ⟨n, hn⟩ : ∃ n, count bytes.length = n + 1 := ⟨_, (Nat.sub_add_cancel pos).symm⟩
    simp [pad, hn, List.replicate_succ', List.getLast?_append]
  have kept : (pad bytes).length - count bytes.length = bytes.length := by
    simp [pad]
  unfold unpad?
  rw [last]
  simp only [back, kept]
  rw [if_pos ⟨pos, le, by simp [pad], by simp [pad]⟩]
  simp [pad]

/-- Whatever text comes out, its padding was there. -/
theorem eq_pad_of_unpad? {bytes text : Bytes} (whole : bytes.length % 16 = 0)
    (h : unpad? bytes = some text) : bytes = pad text := by
  unfold unpad? at h
  split at h
  · cases h
  · next last _ =>
    simp only at h
    split at h
    · next hc =>
      obtain ⟨pos, le, fits, copies⟩ := hc
      obtain rfl := Option.some.inj h
      have kept : count (bytes.length - last.toNat) = last.toNat := by
        simp only [count]
        omega
      rw [pad, List.length_take, Nat.min_eq_left (Nat.sub_le _ _), kept, UInt8.ofNat_toNat,
        ← copies, List.take_append_drop]
    · cases h

end TokenCrypto.Padding
