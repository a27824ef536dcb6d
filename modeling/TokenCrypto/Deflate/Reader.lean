import TokenCrypto.Bytes

/-!
# Reading bits

A compressed stream is read bit by bit, from the low end of each octet up. What is read next may
hang on what has been read, so a reader is a decision tree over bits: it is done, has met damage, or
asks for one more bit. Running it on the bits of a stream tells which, or that the bits ran out.

* `Reader.run_ok_append`: a reader that is done has looked at no bit that it did not take.
* `Reader.run_damaged_append`: nor has one that met damage.
* `Reader.length_rest_le`: a reader never gives back more bits than it was given.
-/

namespace TokenCrypto.Deflate

/-- The bits of a stream, in the order in which they are read. -/
abbrev Bits := List Bool

namespace Bits

/-- The low `width` bits of a number, the lowest first. -/
def ofNat : Nat → Nat → Bits
  | 0, _ => []
  | width + 1, n => (n % 2 == 1) :: ofNat width (n / 2)

/-- The number whose bits, the lowest first, are given. -/
def toNat : Bits → Nat
  | [] => 0
  | b :: rest => b.toNat + 2 * toNat rest

def ofBytes (bytes : Bytes) : Bits := bytes.flatMap fun b => ofNat 8 b.toNat

/-- Bits as octets; the last octet is filled up with zeros. -/
def toBytes (bits : Bits) : Bytes :=
  if _h : bits = [] then []
  else UInt8.ofNat (toNat (bits.take 8)) :: toBytes (bits.drop 8)
termination_by bits.length
decreasing_by
  have := List.length_pos_iff.2 _h
  simp only [List.length_drop]
  omega

end Bits

/-! ## Damage -/

/-- What can be wrong with a compressed stream. -/
inductive Damage where
  | blockType
  | storedLengths
  | tooManySymbols
  | lengthCode
  | lengthRepeat
  | noEndOfBlock
  | literalSet
  | distanceSet
  | literalCode
  | distanceCode
  | tooFarBack
  deriving DecidableEq, Repr

/-- The diagnosis of damage. -/
def Damage.message : Damage → String
  | .blockType => "invalid block type"
  | .storedLengths => "invalid stored block lengths"
  | .tooManySymbols => "too many length or distance symbols"
  | .lengthCode => "invalid code lengths set"
  | .lengthRepeat => "invalid bit length repeat"
  | .noEndOfBlock => "invalid code -- missing end-of-block"
  | .literalSet => "invalid literal/lengths set"
  | .distanceSet => "invalid distances set"
  | .literalCode => "invalid literal/length code"
  | .distanceCode => "invalid distance code"
  | .tooFarBack => "invalid distance too far back"

/-! ## Readers -/

/-- A decision tree over the next bits of a stream. -/
inductive Reader (α : Type) where
  | done (value : α)
  | damaged (why : Damage)
  | bit (next : Bool → Reader α)

/-- The bits that are still to be read, and how many have been read. -/
structure Cursor where
  place : Nat
  bits : Bits

/-- What became of a reader. -/
inductive Outcome (α : Type) where
  | ok (value : α) (rest : Cursor)
  | truncated
  | damaged (why : Damage)

namespace Reader

variable {α β : Type}

/-- A reader, and after it a second one that hangs on its value. -/
def bind : Reader α → (α → Reader β) → Reader β
  | done a, f => f a
  | damaged why, _ => damaged why
  | bit next, f => bit fun b => (next b).bind f

instance : Monad Reader where
  pure := done
  bind := bind

/-- A number of `width` bits, the lowest first. -/
def number : Nat → Reader Nat
  | 0 => done 0
  | width + 1 => bit fun b => (number width).bind fun n => done (b.toNat + 2 * n)

def runFrom : Reader α → Nat → Bits → Outcome α
  | done a, place, bits => .ok a ⟨place, bits⟩
  | damaged why, _, _ => .damaged why
  | bit _, _, [] => .truncated
  | bit next, place, b :: bits => (next b).runFrom (place + 1) bits

def run (r : Reader α) (c : Cursor) : Outcome α := r.runFrom c.place c.bits

/-- A reader that is done has looked at no bit that it did not take. -/
theorem run_ok_append {r : Reader α} {place : Nat} {bits : Bits} {a : α} {rest : Cursor}
    (h : r.runFrom place bits = .ok a rest) (more : Bits) :
    r.runFrom place (bits ++ more) = .ok a ⟨rest.place, rest.bits ++ more⟩ := by
  induction r generalizing place bits with
  | done v =>
    simp only [runFrom, Outcome.ok.injEq] at h
    obtain ⟨rfl, rfl⟩ := h
    rfl
  | damaged why => cases h
  | bit next ih =>
    cases bits with
    | nil => cases h
    | cons b bits => exact ih b h

/-- A reader that has met damage has looked at no further bit. -/
theorem run_damaged_append {r : Reader α} {place : Nat} {bits : Bits} {why : Damage}
    (h : r.runFrom place bits = .damaged why) (more : Bits) :
    r.runFrom place (bits ++ more) = .damaged why := by
  induction r generalizing place bits with
  | done v => cases h
  | damaged w => exact h
  | bit next ih =>
    cases bits with
    | nil => cases h
    | cons b bits => exact ih b h

/-- A reader never gives back more bits than it was given. -/
theorem length_rest_le {r : Reader α} {place : Nat} {bits : Bits} {a : α} {rest : Cursor}
    (h : r.runFrom place bits = .ok a rest) : rest.bits.length ≤ bits.length := by
  induction r generalizing place bits with
  | done v =>
    simp only [runFrom, Outcome.ok.injEq] at h
    obtain ⟨rfl, rfl⟩ := h
    exact Nat.le_refl _
  | damaged why => cases h
  | bit next ih =>
    cases bits with
    | nil => cases h
    | cons b bits => exact Nat.le_succ_of_le (ih b h)

/-- A reader that begins with a bit gives back fewer bits than it was given. -/
theorem length_rest_lt {next : Bool → Reader α} {place : Nat} {bits : Bits} {a : α} {rest : Cursor}
    (h : (bit next).runFrom place bits = .ok a rest) : rest.bits.length < bits.length := by
  cases bits with
  | nil => cases h
  | cons b bits => exact Nat.lt_succ_of_le (length_rest_le h)

end Reader

end TokenCrypto.Deflate
