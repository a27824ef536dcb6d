import TokenCrypto.Deflate.Token

/-!
# Expanding tokens

Tokens become a text one after the other, as far as there is room. A token is looked at only when
there is room for an octet of it, so a fault that comes later than the last octet for which there is
room is not seen.

* `size_repeatBack`, `expand_literal`: what a copy and a literal add.
-/

namespace TokenCrypto.Deflate

/-- Why expansion stopped. -/
inductive Stop where
  /-- There are no more tokens. -/
  | ended
  /-- There is a token but no room. -/
  | full
  /-- A copy reaches back beyond the beginning of the text. -/
  | tooFarBack
  deriving DecidableEq, Repr

/-- A text and why it goes no further. -/
structure Expansion where
  text : Array UInt8
  stop : Stop

/-- So many octets copied from `distance` octets back, one by one, so that a copy may reach into
itself. -/
def repeatBack (distance : Nat) : Nat → Array UInt8 → Array UInt8
  | 0, text => text
  | count + 1, text => repeatBack distance count (text.push (text.getD (text.size - distance) 0))

/-- How many of `wanted` octets there is room for after `size` octets; none stands for room without
end. -/
def room (capacity : Option Nat) (size wanted : Nat) : Nat :=
  match capacity with
  | none => wanted
  | some capacity => min wanted (capacity - size)

/-- Tokens expanded behind a text. -/
def expand (capacity : Option Nat) (text : Array UInt8) : List Token → Expansion
  | [] => ⟨text, .ended⟩
  | .literal octet :: rest =>
    if room capacity text.size 1 = 0 then ⟨text, .full⟩
    else expand capacity (text.push octet) rest
  | .copy length distance :: rest =>
    let fits := room capacity text.size length
    if fits = 0 then ⟨text, .full⟩
    else if text.size < distance then ⟨text, .tooFarBack⟩
    else if fits < length then ⟨repeatBack distance fits text, .full⟩
    else expand capacity (repeatBack distance length text) rest

@[simp] theorem size_repeatBack (distance count : Nat) (text : Array UInt8) :
    (repeatBack distance count text).size = text.size + count := by
  induction count generalizing text with
  | zero => rfl
  | succ count ih => rw [repeatBack, ih, Array.size_push]; omega

/-- A literal adds its octet where there is room without end. -/
theorem expand_literal (octet : UInt8) (text : Array UInt8) (rest : List Token) :
    expand none text (.literal octet :: rest) = expand none (text.push octet) rest := rfl

end TokenCrypto.Deflate
