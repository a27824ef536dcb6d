import TokenCrypto.Bytes

/-!
# ASCII text

The AAD, the MAC input and the labels and methods of key derivation are texts written in ASCII. A
text that has other characters is refused, and the refusal tells the first run of them.

* `Ascii.encode_eq_ok_iff`: exactly the texts of characters below 128 are written, one octet each.
-/

namespace TokenCrypto

/-- Digits of `n` in base sixteen, lower case, at least `width` of them. -/
def hexDigits (width n : Nat) : String :=
  let digits := Nat.toDigits 16 n
  String.ofList (List.replicate (width - digits.length) '0' ++ digits)

/-- The first run of adjacent characters outside ASCII: where it begins, how long it is, and the
character it begins with. Positions count characters from zero. -/
structure NonAscii where
  position : Nat
  length : Nat
  char : Char
  deriving DecidableEq, Repr

namespace NonAscii

/-- The escape that names a character: two, four or eight hexadecimal digits, as few as suffice. -/
def escape (c : Char) : String :=
  if c.toNat < 0x100 then "\\x" ++ hexDigits 2 c.toNat
  else if c.toNat < 0x10000 then "\\u" ++ hexDigits 4 c.toNat
  else "\\U" ++ hexDigits 8 c.toNat

/-- The diagnosis: one character is named, of a longer run the first and last position. -/
def message (run : NonAscii) : String :=
  if run.length = 1 then
    s!"'ascii' codec can't encode character '" ++ escape run.char
      ++ s!"' in position {run.position}: ordinal not in range(128)"
  else
    s!"'ascii' codec can't encode characters in position {run.position}-"
      ++ s!"{run.position + run.length - 1}: ordinal not in range(128)"

end NonAscii

namespace Ascii

def isMember (c : Char) : Bool := c.toNat < 128

/-- The first run of characters outside ASCII, if there is one. -/
def firstOutside (text : List Char) : Option NonAscii :=
  match text.dropWhile isMember with
  | [] => none
  | c :: rest => some {
      position := (text.takeWhile isMember).length
      length := 1 + (rest.takeWhile (!isMember ·)).length
      char := c }

def octet (c : Char) : UInt8 := UInt8.ofNat c.toNat

/-- A text as octets, one for each character. -/
def encode (text : String) : Except NonAscii Bytes :=
  match firstOutside text.toList with
  | none => .ok (text.toList.map octet)
  | some run => .error run

/-- There is no run outside ASCII exactly in the ASCII texts. -/
theorem firstOutside_eq_none_iff (text : List Char) :
    firstOutside text = none ↔ ∀ c ∈ text, isMember c = true := by
  induction text with
  | nil => simp [firstOutside]
  | cons c text ih =>
    cases hc : isMember c with
    | false => simp [firstOutside, hc]
    | true =>
      have : (firstOutside (c :: text) = none) ↔ firstOutside text = none := by
        simp only [firstOutside, List.dropWhile_cons, hc, if_true]
        cases text.dropWhile isMember <;> simp
      simp [this, ih, hc]

/-- Exactly the texts of characters below 128 are written, one octet each. -/
theorem encode_eq_ok_iff (text : String) (bytes : Bytes) :
    encode text = .ok bytes ↔
      (∀ c ∈ text.toList, isMember c = true) ∧ bytes = text.toList.map octet := by
  unfold encode
  cases h : firstOutside text.toList with
  | none =>
    have := (firstOutside_eq_none_iff _).1 h
    exact ⟨fun he => ⟨this, (Except.ok.inj he).symm⟩, fun he => by rw [he.2]⟩
  | some run =>
    have hn : ¬ ∀ c ∈ text.toList, isMember c = true := fun ha => by
      simp [(firstOutside_eq_none_iff _).2 ha] at h
    exact ⟨fun he => (nomatch he), fun he => absurd he.1 hn⟩

end Ascii

end TokenCrypto
