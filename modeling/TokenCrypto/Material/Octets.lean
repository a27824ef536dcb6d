import TokenCrypto.Error

/-!
# Handed-in values as octets

Where octets belong, a value that is none is a fault. Which one depends on how the value was used:
most uses name the role in which it was handed in, the others what cannot be done with it.

* `Material.equals_of_bytes`: two values that hold octets are compared as such.
-/

namespace TokenCrypto.Material

/-- The octets of octets or of a buffer; anything else is a fault. -/
def bytes (role : Role) (m : Material) : Except Error Bytes :=
  match m.bytes? with
  | some bytes => .ok bytes
  | none => fail (.notOctets role m.kind)

/-- The octets of octets alone; anything else is a fault. -/
def fixedBytes (role : Role) (m : Material) : Except Error Bytes :=
  match m.octets? with
  | some bytes => .ok bytes
  | none => fail (.notOctets role m.kind)

/-- The octets of octets or of a buffer; anything else is unfit for the use. -/
def bytesFor (use : Use) (m : Material) : Except Error Bytes :=
  match m.bytes? with
  | some bytes => .ok bytes
  | none => fail (.unfit use m.kind)

/-- The octets of octets or of a buffer, and none of a null; anything else is unfit for the use. -/
def bytesOrNone (use : Use) : Material → Except Error Bytes
  | foreign .null => .ok []
  | m => m.bytesFor use

/-- How many items a value has; a value that is not made of items is a fault. -/
def size (m : Material) : Except Error Nat :=
  match m.size? with
  | some n => .ok n
  | none => fail (.unfit .size m.kind)

/-! ## Comparison -/

/-- Whether two values with so many items each are equal. Values of different sizes are not, and
then `expected` is compared with itself. Only octets can be compared; without items there is
nothing to compare. -/
def equalItems (expected actual : Material) (expectedSize actualSize : Nat) : Except Error Bool :=
  let other := if actualSize = expectedSize then actual else expected
  match expected.bytes?, actual.bytes?, other.bytes? with
  | some expected, some actual, _ => .ok (Bytes.equalThroughout expected actual)
  | some _, none, some _ => .ok false
  | _, _, _ =>
    if expectedSize = 0 then .ok (actualSize = 0)
    else fail (.unfit (.compared expected.kind) other.kind)

/-- Whether two values are equal, item by item. -/
def equals (expected actual : Material) : Except Error Bool := do
  let expectedSize ← expected.size
  let actualSize ← actual.size
  equalItems expected actual expectedSize actualSize

@[simp] theorem fixedBytes_octets (role : Role) (bytes : Bytes) :
    (octets bytes).fixedBytes role = .ok bytes := rfl

@[simp] theorem bytesFor_octets (use : Use) (bytes : Bytes) :
    (octets bytes).bytesFor use = .ok bytes := rfl

@[simp] theorem bytesOrNone_octets (use : Use) (bytes : Bytes) :
    (octets bytes).bytesOrNone use = .ok bytes := rfl

@[simp] theorem size_octets (bytes : Bytes) : (octets bytes).size = .ok bytes.length := rfl

@[simp] theorem equals_octets (expected actual : Bytes) :
    (octets expected).equals (octets actual) = .ok (Bytes.equalThroughout expected actual) := rfl

/-- Octets and buffers are compared by what they hold. -/
theorem equals_of_bytes {expected actual : Material} {a b : Bytes}
    (expected_bytes : expected.bytes? = some a) (actual_bytes : actual.bytes? = some b) :
    expected.equals actual = .ok (Bytes.equalThroughout a b) := by
  have expected_size : expected.size = .ok a.length := by
    rw [size, size?_of_bytes? expected_bytes]
  have actual_size : actual.size = .ok b.length := by
    rw [size, size?_of_bytes? actual_bytes]
  rw [equals, expected_size, ok_bind, actual_size, ok_bind, equalItems, expected_bytes,
    actual_bytes]

theorem bytes_eq_ok_iff {m : Material} {role : Role} {bytes : Bytes} :
    m.bytes role = .ok bytes ↔ m.bytes? = some bytes := by
  unfold Material.bytes
  cases m.bytes? with
  | none => simp
  | some read => simp

theorem fixedBytes_eq_ok_iff {m : Material} {role : Role} {bytes : Bytes} :
    m.fixedBytes role = .ok bytes ↔ m = .octets bytes := by
  cases m <;> simp [fixedBytes, octets?]

theorem bytesFor_eq_ok_iff {m : Material} {use : Use} {bytes : Bytes} :
    m.bytesFor use = .ok bytes ↔ m.bytes? = some bytes := by
  unfold bytesFor
  cases m.bytes? with
  | none => simp
  | some read => simp

end TokenCrypto.Material
