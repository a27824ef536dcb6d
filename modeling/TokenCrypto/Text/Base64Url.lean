import TokenCrypto.Bytes

/-!
# Base64URL

The text form of octets on the wire: three octets are four letters of a 64 letter alphabet, a rest
of one octet two letters, a rest of two octets three; nothing pads the end. The bits that the last
letter does not need are not looked at when a text is read, so several texts may stand for the same
octets.

* `Base64Url.decode?_encode`: what is written is read back.
-/

namespace TokenCrypto.Base64Url

def letter (n : Nat) : Char :=
  if n < 26 then Char.ofNat (65 + n)
  else if n < 52 then Char.ofNat (97 + (n - 26))
  else if n < 62 then Char.ofNat (48 + (n - 52))
  else if n = 62 then '-'
  else '_'

/-- The number of a letter of the alphabet. -/
def sextet? (c : Char) : Option Nat :=
  if 65 ≤ c.toNat ∧ c.toNat ≤ 90 then some (c.toNat - 65)
  else if 97 ≤ c.toNat ∧ c.toNat ≤ 122 then some (c.toNat - 97 + 26)
  else if 48 ≤ c.toNat ∧ c.toNat ≤ 57 then some (c.toNat - 48 + 52)
  else if c = '-' then some 62
  else if c = '_' then some 63
  else none

/-- Each number below 64 is read back from its letter. -/
theorem sextet?_letter {n : Nat} (h : n < 64) : sextet? (letter n) = some n := by
  have : ∀ n : Fin 64, sextet? (letter n) = some n.val := by decide
  exact this ⟨n, h⟩

/-- The sextets that octets are cut into; missing low bits of the last one are zero. -/
def sextets : Bytes → List Nat
  | [] => []
  | [a] => [a.toNat / 4, a.toNat % 4 * 16]
  | [a, b] => [a.toNat / 4, a.toNat % 4 * 16 + b.toNat / 16, b.toNat % 16 * 4]
  | a :: b :: c :: rest =>
    (a.toNat / 4) :: (a.toNat % 4 * 16 + b.toNat / 16) :: (b.toNat % 16 * 4 + c.toNat / 64)
      :: (c.toNat % 64) :: sextets rest

/-- The octets that sextets hold; a single sextet at the end is too short for an octet. -/
def ofSextets? : List Nat → Option Bytes
  | [] => some []
  | [_] => none
  | [p, q] => some [UInt8.ofNat (p * 4 + q / 16)]
  | [p, q, r] => some [UInt8.ofNat (p * 4 + q / 16), UInt8.ofNat (q % 16 * 16 + r / 4)]
  | p :: q :: r :: s :: rest =>
    (ofSextets? rest).map fun bytes =>
      UInt8.ofNat (p * 4 + q / 16) :: UInt8.ofNat (q % 16 * 16 + r / 4)
        :: UInt8.ofNat (r % 4 * 64 + s) :: bytes

def encode (bytes : Bytes) : String := String.ofList ((sextets bytes).map letter)

/-- The octets of a text; none if a character is outside the alphabet or the length is one more
than a multiple of four. -/
def decode? (text : String) : Option Bytes := (text.toList.mapM sextet?).bind ofSextets?

theorem sextets_lt (bytes : Bytes) : ∀ n ∈ sextets bytes, n < 64 := by
  fun_induction sextets bytes with
  | case1 => simp
  | case2 a =>
    have := a.toNat_lt
    simp only [List.mem_cons, List.not_mem_nil, or_false, forall_eq_or_imp, forall_eq]
    omega
  | case3 a b =>
    have := a.toNat_lt
    have := b.toNat_lt
    simp only [List.mem_cons, List.not_mem_nil, or_false, forall_eq_or_imp, forall_eq]
    omega
  | case4 a b c rest ih =>
    have := a.toNat_lt
    have := b.toNat_lt
    have := c.toNat_lt
    simp only [List.mem_cons, forall_eq_or_imp]
    exact ⟨by omega, by omega, by omega, by omega, ih⟩

theorem ofSextets?_sextets (bytes : Bytes) : ofSextets? (sextets bytes) = some bytes := by
  have back (b : UInt8) (n : Nat) (h : n = b.toNat) : UInt8.ofNat n = b := by
    rw [h, UInt8.ofNat_toNat]
  fun_induction sextets bytes with
  | case1 => rfl
  | case2 a =>
    have := a.toNat_lt
    simp only [ofSextets?, Option.some.injEq, List.cons.injEq, and_true]
    exact back _ _ (by omega)
  | case3 a b =>
    have := a.toNat_lt
    have := b.toNat_lt
    simp only [ofSextets?, Option.some.injEq, List.cons.injEq, and_true]
    exact ⟨back _ _ (by omega), back _ _ (by omega)⟩
  | case4 a b c rest ih =>
    have := a.toNat_lt
    have := b.toNat_lt
    have := c.toNat_lt
    simp only [ofSextets?, ih, Option.map_some, Option.some.injEq, List.cons.injEq, and_true]
    exact ⟨back _ _ (by omega), back _ _ (by omega), back _ _ (by omega)⟩

/-- The letters of numbers below 64 are read back. -/
theorem mapM_sextet?_letter (ns : List Nat) (h : ∀ n ∈ ns, n < 64) :
    (ns.map letter).mapM sextet? = some ns := by
  induction ns with
  | nil => rfl
  | cons n ns ih =>
    simp only [List.mem_cons, forall_eq_or_imp] at h
    simp [sextet?_letter h.1, ih h.2]

theorem decode?_encode (bytes : Bytes) : decode? (encode bytes) = some bytes := by
  simp [decode?, encode, mapM_sextet?_letter _ (sextets_lt bytes), ofSextets?_sextets]

end TokenCrypto.Base64Url
