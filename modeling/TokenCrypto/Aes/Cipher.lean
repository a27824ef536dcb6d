import TokenCrypto.Aes.Block

/-!
# AES

The block cipher: a key is stretched into one block for each round, and the rounds alternate the
layers of `Aes.Block` with the sum with a round's key.

* `KeySchedule.decrypt_encrypt`, `KeySchedule.encrypt_decrypt`: decryption and encryption undo each
  other, whatever the schedule.
-/

namespace TokenCrypto.Aes

/-- The blocks that the rounds add: one before all rounds, one for each round that mixes, and one
for the last round, which does not. -/
structure KeySchedule where
  first : Block
  inner : List Block
  last : Block
  deriving DecidableEq, Repr

namespace KeySchedule

def round (s k : Block) : Block := s.substitute.shift.mix.add k

def unround (k s : Block) : Block := (s.add k).unmix.unshift.unsubstitute

def encrypt (ks : KeySchedule) (s : Block) : Block :=
  (ks.inner.foldl round (s.add ks.first)).substitute.shift.add ks.last

def decrypt (ks : KeySchedule) (s : Block) : Block :=
  (ks.inner.foldr unround (s.add ks.last).unshift.unsubstitute).add ks.first

@[simp] theorem unround_round (s k : Block) : unround k (round s k) = s := by
  simp [unround, round]

/-- Rounds are undone from the last to the first. -/
theorem foldr_unround_foldl_round (keys : List Block) (s : Block) :
    keys.foldr unround (keys.foldl round s) = s := by
  induction keys generalizing s with
  | nil => rfl
  | cons k keys ih => rw [List.foldl_cons, List.foldr_cons, ih, unround_round]

@[simp] theorem round_unround (k s : Block) : round (unround k s) k = s := by
  simp [unround, round]

/-- Rounds bring back what was undone from the last to the first. -/
theorem foldl_round_foldr_unround (keys : List Block) (s : Block) :
    keys.foldl round (keys.foldr unround s) = s := by
  induction keys generalizing s with
  | nil => rfl
  | cons k keys ih => rw [List.foldr_cons, List.foldl_cons, round_unround, ih]

@[simp] theorem decrypt_encrypt (ks : KeySchedule) (s : Block) : ks.decrypt (ks.encrypt s) = s := by
  simp [decrypt, encrypt, foldr_unround_foldl_round]

@[simp] theorem encrypt_decrypt (ks : KeySchedule) (s : Block) : ks.encrypt (ks.decrypt s) = s := by
  simp [decrypt, encrypt, foldl_round_foldr_unround]

end KeySchedule

/-! ## Stretching the key -/

/-- The constant of the `n`th turn of the schedule, counted from zero. -/
def turnConstant : Nat → UInt8
  | 0 => 1
  | n + 1 => double (turnConstant n)

def turn (x : Column) : Column := ⟨x.b, x.c, x.d, x.a⟩

/-- The words of a schedule with one word more, for a key of `size` words: the word one place back,
altered at the beginning of each turn and, for long keys, in its middle, plus the word a turn back.
-/
def stretch (size : Nat) (ws : Array Column) : Array Column :=
  let place := ws.size
  let back (i : Nat) := ws.getD (place - i) ⟨0, 0, 0, 0⟩
  let altered :=
    if place % size = 0 then
      ((turn (back 1)).map sub).add ⟨turnConstant (place / size - 1), 0, 0, 0⟩
    else if 6 < size ∧ place % size = 4 then (back 1).map sub
    else back 1
  ws.push ((back size).add altered)

/-- The block of four schedule words from a place on. -/
def blockAt (ws : Array Column) (place : Nat) : Block :=
  let word (i : Nat) := ws.getD (place + i) ⟨0, 0, 0, 0⟩
  ⟨word 0, word 1, word 2, word 3⟩

/-- The schedule of a key of 16, 24 or 32 octets. -/
def schedule (key : Bytes) : KeySchedule :=
  let size := key.length / 4
  let rounds := size + 6
  let keyWords := ((Bytes.blocks 4 key).map Column.ofBytes).toArray
  let ws := (List.range (4 * (rounds + 1) - size)).foldl (fun ws _ => stretch size ws) keyWords
  { first := blockAt ws 0
    inner := (List.range (rounds - 1)).map fun i => blockAt ws (4 * (i + 1))
    last := blockAt ws (4 * rounds) }

end TokenCrypto.Aes
