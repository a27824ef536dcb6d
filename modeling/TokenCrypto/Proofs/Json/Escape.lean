import TokenCrypto.Json.Token

/-!
# Escapes are read back

A character of a text may be written as it is or in any of its escapes. The writer of texts knows
characters, the reader knows UTF-16 units: a character outside the basic plane may be written as two
escapes, is then read as two units, and only then joined.

* `WritesChars`: what is written for characters.
* `Token.units?_writesChars`: what is written for characters is read as units that are joined to
  these characters.
* `writesChars_flatMap_escape`: the escapes of the compact form are among what is written.
-/

namespace TokenCrypto.Json

/-! ## Ways to write -/

/-- A hexadecimal digit, in either case. -/
def IsHexDigit (n : Nat) (c : Char) : Prop :=
  n < 16 ∧ (c = Nat.digitChar n ∨ c = (Nat.digitChar n).toUpper)

/-- The escape of a UTF-16 unit: a backslash, the letter u and four digits. -/
inductive WritesUnit (u : Nat) : List Char → Prop
  | digits {a b c d : Char} (ha : IsHexDigit (u / 4096) a) (hb : IsHexDigit (u / 256 % 16) b)
    (hc : IsHexDigit (u / 16 % 16) c) (hd : IsHexDigit (u % 16) d) :
    WritesUnit u ['\\', 'u', a, b, c, d]

/-- The characters that have a letter of their own behind a backslash. -/
def letters : List (Char × Char) :=
  [('"', '"'), ('\\', '\\'), ('/', '/'), ('\x08', 'b'), ('\x0c', 'f'), ('\n', 'n'), ('\r', 'r'),
    ('\t', 't')]

/-- What is written for a character: the character itself unless it is a quote, a backslash or a
control character, its letter behind a backslash, or the escapes of its units. -/
inductive WritesChar (c : Char) : List Char → Prop
  | plain (visible : 0x20 ≤ c.toNat) (no_quote : c ≠ '"') (no_backslash : c ≠ '\\') :
    WritesChar c [c]
  | letter {l : Char} (listed : (c, l) ∈ letters) : WritesChar c ['\\', l]
  | unit {cs : List Char} (basic : c.toNat < 0x10000) (written : WritesUnit c.toNat cs) :
    WritesChar c cs
  | pair {high low : List Char} (beyond : 0x10000 ≤ c.toNat)
    (first : WritesUnit (0xd800 + (c.toNat - 0x10000) / 0x400) high)
    (second : WritesUnit (0xdc00 + (c.toNat - 0x10000) % 0x400) low) : WritesChar c (high ++ low)

/-- What is written for characters one after the other. -/
inductive WritesChars : List Char → List Char → Prop
  | nil : WritesChars [] []
  | cons {c : Char} {chars cs rest : List Char} (first : WritesChar c cs)
    (others : WritesChars chars rest) : WritesChars (c :: chars) (cs ++ rest)

/-! ## The escapes of the compact form -/

theorem writesUnit_unitEscape {u : Nat} (h : u < 0x10000) : WritesUnit u (unitEscape u) := by
  have first : u / 4096 % 16 = u / 4096 := Nat.mod_eq_of_lt (by omega)
  have digit (n : Nat) : IsHexDigit (n % 16) (Nat.digitChar (n % 16)) :=
    ⟨Nat.mod_lt n (by decide), .inl rfl⟩
  have written : WritesUnit u _ :=
    .digits (first ▸ digit (u / 4096)) (digit (u / 256)) (digit (u / 16)) (digit u)
  rw [unitEscape, first]
  exact written

theorem writesChar_escape (c : Char) : WritesChar c (escape c) := by
  have named {n : Nat} (h : c.toNat = n) : c = Char.ofNat n := by rw [← h, Char.ofNat_toNat]
  unfold escape
  -- the letters after a backslash, one for each character that has one
  split
  · next h => subst h; exact .letter (by decide)
  split
  · next h => subst h; exact .letter (by decide)
  split
  · next h => subst h; exact .letter (by decide)
  split
  · next h => subst h; exact .letter (by decide)
  split
  · next h => subst h; exact .letter (by decide)
  split
  · next h => rw [named h]; exact .letter (by decide)
  split
  · next h => rw [named h]; exact .letter (by decide)
  split
  · next no_quote no_backslash _ _ _ _ _ h => exact .plain h.1 no_quote no_backslash
  split
  · next h => exact .unit h (writesUnit_unitEscape h)
  · next h =>
    -- two halves, each below the limit of a unit because a character is below 0x110000
    have valid : c.toNat < 0xd800 ∨ (0xdfff < c.toNat ∧ c.toNat < 0x110000) := c.valid
    exact .pair (Nat.le_of_not_lt h) (writesUnit_unitEscape (by omega))
      (writesUnit_unitEscape (by omega))

theorem writesChars_flatMap_escape (chars : List Char) :
    WritesChars chars (chars.flatMap escape) := by
  induction chars with
  | nil => exact .nil
  | cons c chars ih => exact .cons (writesChar_escape c) ih

/-! ## Units and pairs -/

/-- The UTF-16 units of a character. -/
def unitsOf (c : Char) : List Nat :=
  if c.toNat < 0x10000 then [c.toNat]
  else [0xd800 + (c.toNat - 0x10000) / 0x400, 0xdc00 + (c.toNat - 0x10000) % 0x400]

namespace Text

theorem joinPairs_cons {u : Nat} (h : isHigh u = false) (rest : List Nat) :
    joinPairs (u :: rest) = u :: joinPairs rest := by
  cases rest with
  | nil => rfl
  | cons v rest => simp [joinPairs, h]

theorem joinPairs_unitsOf (c : Char) (rest : List Nat) :
    joinPairs (unitsOf c ++ rest) = c.toNat :: joinPairs rest := by
  have whole := isHalf_toNat c
  simp only [isHalf, Bool.and_eq_false_iff, decide_eq_false_iff_not] at whole
  unfold unitsOf
  split
  · apply joinPairs_cons
    simp only [isHigh, Bool.and_eq_false_iff, decide_eq_false_iff_not]
    omega
  · have valid : c.toNat < 0xd800 ∨ (0xdfff < c.toNat ∧ c.toNat < 0x110000) := c.valid
    have pair : (isHigh (0xd800 + (c.toNat - 0x10000) / 0x400)
        && isLow (0xdc00 + (c.toNat - 0x10000) % 0x400)) = true := by
      simp only [isHigh, isLow, Bool.and_eq_true, decide_eq_true_eq]
      omega
    simp only [List.cons_append, List.nil_append, joinPairs, pair, if_true, List.cons.injEq,
      and_true]
    omega

end Text

/-! ## Reading -/

namespace Token

theorem units?_short {letter : Char} {u : Nat} (h : shortEscape? letter = some u)
    (hu : letter ≠ 'u') (rest : List Char) :
    units? ('\\' :: letter :: rest) = (units? rest).map fun found => (u :: found.1, found.2) := by
  rw [units?]
  · simp only [h]
    cases units? rest <;> rfl
  · intro a b c d r he
    exact absurd he hu

theorem units?_plain {c : Char} (hq : c ≠ '"') (hb : c ≠ '\\') (hc : 0x20 ≤ c.toNat)
    (rest : List Char) :
    units? (c :: rest) = (units? rest).map fun found => (c.toNat :: found.1, found.2) := by
  rw [units?]
  · rw [if_neg (by simp only [hb, or_false]; omega)]
    cases units? rest <;> rfl
  · exact hq
  · intro a b c d r he
    exact absurd he hb
  · intro l r he
    exact absurd he hb

theorem hexDigit?_of_isHexDigit {n : Nat} {c : Char} (h : IsHexDigit n c) :
    hexDigit? c = some n := by
  have both : ∀ n : Fin 16, hexDigit? (Nat.digitChar n) = some n.val
      ∧ hexDigit? (Nat.digitChar n).toUpper = some n.val := by decide
  obtain ⟨lt, rfl | rfl⟩ := h
  · exact (both ⟨n, lt⟩).1
  · exact (both ⟨n, lt⟩).2

theorem units?_writesUnit {u : Nat} {cs : List Char} (written : WritesUnit u cs)
    (rest : List Char) :
    units? (cs ++ rest) = (units? rest).map fun found => (u :: found.1, found.2) := by
  cases written with
  | digits ha hb hc hd =>
    simp only [List.cons_append, List.nil_append, units?, unit?, hexDigit?_of_isHexDigit ha,
      hexDigit?_of_isHexDigit hb, hexDigit?_of_isHexDigit hc, hexDigit?_of_isHexDigit hd,
      Option.bind_eq_bind, Option.bind_some, Option.pure_def]
    have value : u / 4096 * 4096 + u / 256 % 16 * 256 + u / 16 % 16 * 16 + u % 16 = u := by omega
    rw [value]
    cases units? rest <;> rfl

/-- What is written for a character is read as units that are joined to that character. -/
theorem units?_writesChar {c : Char} {cs : List Char} (written : WritesChar c cs) :
    ∃ us, (∀ rest, units? (cs ++ rest) = (units? rest).map fun found => (us ++ found.1, found.2))
      ∧ ∀ more, Text.joinPairs (us ++ more) = c.toNat :: Text.joinPairs more := by
  have whole := Text.isHalf_toNat c
  simp only [Text.isHalf, Bool.and_eq_false_iff, decide_eq_false_iff_not] at whole
  have no_high : Text.isHigh c.toNat = false := by
    simp only [Text.isHigh, Bool.and_eq_false_iff, decide_eq_false_iff_not]
    omega
  cases written with
  | plain visible no_quote no_backslash =>
    exact ⟨[c.toNat], units?_plain no_quote no_backslash visible, Text.joinPairs_cons no_high⟩
  | @letter l listed =>
    have named : ∀ entry ∈ letters, shortEscape? entry.2 = some entry.1.toNat ∧ entry.2 ≠ 'u' := by
      decide
    have found := named (c, l) listed
    exact ⟨[c.toNat], units?_short found.1 found.2, Text.joinPairs_cons no_high⟩
  | unit basic written =>
    exact ⟨[c.toNat], units?_writesUnit written, Text.joinPairs_cons no_high⟩
  | @pair high low beyond first second =>
    refine ⟨unitsOf c, ?_, Text.joinPairs_unitsOf c⟩
    intro rest
    rw [List.append_assoc, units?_writesUnit first, units?_writesUnit second, unitsOf,
      if_neg (Nat.not_lt.2 beyond)]
    cases units? rest <;> rfl

theorem units?_writesChars {chars cs : List Char} (written : WritesChars chars cs) :
    ∃ us, (∀ rest, units? (cs ++ '"' :: rest) = some (us, rest))
      ∧ Text.joinPairs us = chars.map Char.toNat := by
  induction written with
  | nil => exact ⟨[], fun rest => rfl, rfl⟩
  | cons first others ih =>
    obtain ⟨us, read, joined⟩ := units?_writesChar first
    obtain ⟨vs, read', joined'⟩ := ih
    refine ⟨us ++ vs, ?_, ?_⟩
    · intro rest
      rw [List.append_assoc, read, read']
      rfl
    · rw [joined, joined', List.map_cons]

end Token

end TokenCrypto.Json
