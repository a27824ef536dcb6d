import TokenCrypto.Bytes
import TokenCrypto.Json.Value

/-!
# Handed-in values

Keys, plaintexts, IVs and the like come from outside, where a value may be octets that stay as they
are, a buffer that may be overwritten, or no octets at all. What is no octets is known by its kind.

* `Material.size?_of_bytes?`: the size of octets is their number.
* `Material.wipe_buffer`, `Material.wipe_octets`: a buffer can be wiped, octets cannot.
-/

namespace TokenCrypto

/-- What a handed-in value is. -/
inductive Kind where
  | octets
  | buffer
  | text
  | integer
  | bool
  | real
  | nothing
  | list
  | object
  deriving DecidableEq, Repr

/-- The name of a kind in a diagnosis. -/
def Kind.name : Kind → String
  | .octets => "bytes"
  | .buffer => "bytearray"
  | .text => "str"
  | .integer => "int"
  | .bool => "bool"
  | .real => "float"
  | .nothing => "NoneType"
  | .list => "list"
  | .object => "dict"

/-- The name of what the items of a kind are: octets are numbers, and a text is made of texts. -/
def Kind.itemName : Kind → String
  | .octets => Kind.integer.name
  | .buffer => Kind.integer.name
  | kind => kind.name

/-- The kind of a JSON value. -/
def Json.Value.kind : Json.Value → Kind
  | .null => .nothing
  | .bool _ => .bool
  | .integer _ => .integer
  | .real _ => .real
  | .text _ => .text
  | .list _ => .list
  | .object _ => .object

/-- How many items a JSON value has, if it is made of items. -/
def Json.Value.size? : Json.Value → Option Nat
  | .text t => some t.length
  | .list items => some items.length
  | .object members => some members.length
  | _ => none

/-- Whether the text of a number is one of zero: in front of an exponent no digit is another. -/
def Json.isZero (text : String) : Bool :=
  (text.toList.takeWhile fun c => c ≠ 'e' ∧ c ≠ 'E').all fun c => c = '-' ∨ c = '0' ∨ c = '.'

/-- Whether a JSON value counts as none: null, false, a zero, or what has no items. -/
def Json.Value.isVoid : Json.Value → Bool
  | .null => true
  | .bool value => !value
  | .integer n => n = 0
  | .real t => Json.isZero t
  | value => value.size? = some 0

/-- A value handed in where octets belong. -/
inductive Material where
  | octets (bytes : Bytes)
  | buffer (bytes : Bytes)
  | foreign (value : Json.Value)
  deriving Inhabited

namespace Material

def kind : Material → Kind
  | octets _ => .octets
  | buffer _ => .buffer
  | foreign value => value.kind

/-- The octets of octets or of a buffer. -/
def bytes? : Material → Option Bytes
  | octets bytes => some bytes
  | buffer bytes => some bytes
  | foreign _ => none

def octets? : Material → Option Bytes
  | octets bytes => some bytes
  | _ => none

/-- How many items the value has, if it is made of items. -/
def size? : Material → Option Nat
  | octets bytes => some bytes.length
  | buffer bytes => some bytes.length
  | foreign value => value.size?

/-- Whether the value counts as none. -/
def isVoid : Material → Bool
  | octets bytes => bytes.isEmpty
  | buffer bytes => bytes.isEmpty
  | foreign value => value.isVoid

/-- Octets that may be missing, as a value: what is missing is null. -/
def ofBytes? : Option Bytes → Material
  | some bytes => octets bytes
  | none => foreign .null

/-- A buffer with a zero in each place; all else stays as it is. -/
def wipe : Material → Material
  | buffer bytes => buffer bytes.zeroed
  | other => other

theorem size?_of_bytes? {m : Material} {bytes : Bytes} (h : m.bytes? = some bytes) :
    m.size? = some bytes.length := by
  cases m <;> simp_all [bytes?, size?]

@[simp] theorem wipe_buffer (bytes : Bytes) :
    (buffer bytes).wipe = buffer (List.replicate bytes.length 0) := by
  rw [wipe, Bytes.zeroed_eq]

@[simp] theorem wipe_octets (bytes : Bytes) : (octets bytes).wipe = octets bytes := rfl

@[simp] theorem wipe_wipe (m : Material) : m.wipe.wipe = m.wipe := by
  cases m <;> simp [wipe]

end Material

end TokenCrypto
