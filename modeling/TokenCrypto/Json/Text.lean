import TokenCrypto.Text.Quoted

/-!
# JSON texts

A JSON text may name half of a surrogate pair on its own, and then it is no sequence of characters.
Such a text is kept as its code points, with the halves among them; every other text is a string. So
two texts are equal exactly if their code points are.

* `Text.bind_string?_eq_some_iff`: looking up by a text what goes by a name.
* `Text.ofPoints_toNat`: the code points of a string make that string.
-/

namespace TokenCrypto.Json

/-- A text of JSON. -/
inductive Text where
  | string (value : String)
  /-- Code points, of which one at least is half of a pair. -/
  | broken (points : List Nat)
  deriving DecidableEq, Repr

instance : Inhabited Text := ⟨.string ""⟩

instance : Coe String Text := ⟨.string⟩

namespace Text

/-! ## Halves and pairs -/

/-- Whether a unit is the first half of a pair. -/
def isHigh (u : Nat) : Bool := 0xd800 ≤ u && u < 0xdc00

/-- Whether a unit is the second half of a pair. -/
def isLow (u : Nat) : Bool := 0xdc00 ≤ u && u < 0xe000

/-- Whether a code point is half of a pair. -/
def isHalf (p : Nat) : Bool := 0xd800 ≤ p && p < 0xe000

/-- The code points of units: adjacent halves are joined, all else stays as it is. -/
def joinPairs : List Nat → List Nat
  | [] => []
  | [u] => [u]
  | u :: v :: rest =>
    if isHigh u && isLow v then
      (0x10000 + (u - 0xd800) * 0x400 + (v - 0xdc00)) :: joinPairs rest
    else u :: joinPairs (v :: rest)

/-! ## Making and showing -/

def ofPoints (points : List Nat) : Text :=
  if points.any isHalf then broken points else string (String.ofList (points.map Char.ofNat))

/-- The text of UTF-16 units and code points beyond them. -/
def ofUnits (units : List Nat) : Text := ofPoints (joinPairs units)

/-- The string of a text that is one. -/
def string? : Text → Option String
  | string value => some value
  | broken _ => none

/-- The string in which a text is shown: half a pair becomes the replacement character. -/
def shown : Text → String
  | string value => value
  | broken points =>
    String.ofList (points.map fun p => if isHalf p then '\ufffd' else Char.ofNat p)

def length : Text → Nat
  | string value => value.length
  | broken points => points.length

/-- The form in which a diagnosis shows a text. -/
def display (text : Text) : String := Quoted.quote text.shown

@[simp] theorem shown_string (value : String) : (string value).shown = value := rfl

@[simp] theorem string?_string (value : String) : (string value).string? = some value := rfl

/-- Where all things are found under their names, a text finds what it is the name of. -/
theorem bind_string?_eq_some_iff {α : Type} {nameOf : α → String} {find? : String → Option α}
    (found : ∀ a, find? (nameOf a) = some a)
    (named : ∀ {name : String} {a : α}, find? name = some a → nameOf a = name) {text : Text}
    {a : α} : text.string?.bind find? = some a ↔ text = string (nameOf a) := by
  constructor
  · intro h
    obtain ⟨name, spelled, known⟩ := Option.bind_eq_some_iff.1 h
    obtain rfl := named known
    cases text with
    | string text => rw [Option.some.inj spelled]
    | broken points => cases spelled
  · rintro rfl
    exact found a

theorem isHalf_toNat (c : Char) : isHalf c.toNat = false := by
  have valid := c.valid
  have same : c.val.toNat = c.toNat := rfl
  simp only [UInt32.isValidChar, Nat.isValidChar, same] at valid
  simp only [isHalf, Bool.and_eq_false_iff, decide_eq_false_iff_not]
  omega

/-- The code points of a string make that string. -/
theorem ofPoints_toNat (value : String) :
    ofPoints (value.toList.map Char.toNat) = string value := by
  have whole : (value.toList.map Char.toNat).any isHalf = false := by
    rw [List.any_eq_false]
    intro p hp
    obtain ⟨c, _, rfl⟩ := List.mem_map.1 hp
    simp [isHalf_toNat]
  have back : Char.ofNat ∘ Char.toNat = id := funext Char.ofNat_toNat
  rw [ofPoints, whole, if_neg Bool.false_ne_true, List.map_map, back, List.map_id,
    String.ofList_toList]

end Text

end TokenCrypto.Json
