import TokenCrypto.Curve
import TokenCrypto.Hash

/-!
# Elliptic curve signatures

ECDSA. A signature is two numbers, r and s, each in as many octets as a coordinate of the curve, and
both between one and the order of the base point.

* `Ecdsa.verify_eq_false_of_length`: a signature of any other length is refused.
* `Ecdsa.verify_eq_false_of_range`: so is one with a number out of range.
-/

namespace TokenCrypto.Ecdsa

/-- A public key: a curve and a point on it. -/
structure PublicKey where
  curve : Curve
  x : Nat
  y : Nat
  deriving DecidableEq, Repr

/-- The number that stands for a message: the leftmost bits of its digest, as many as the order
has. -/
def messageNumber (d : Curve.Domain) (hash : Hash) (message : Bytes) : Nat :=
  Bytes.toNat (hash.digest message) >>> (8 * hash.size - bitLength d.order)

/-- Whether two numbers are a signature of the message that `e` stands for. -/
def holds (d : Curve.Domain) (key : Curve.Point) (e r s : Nat) : Bool :=
  if 1 ≤ r ∧ r < d.order ∧ 1 ≤ s ∧ s < d.order then
    let w := Modular.inverse d.order s
    let sum := Curve.Point.add d (.times d (e * w % d.order) d.base)
      (.times d (r * w % d.order) key)
    match sum.abscissa? d with
    | some x => x % d.order == r
    | none => false
  else false

/-- Whether a signature was made for a message. On a curve whose numbers are not known none was. -/
def verify (key : PublicKey) (hash : Hash) (message signature : Bytes) : Bool :=
  let width := key.curve.width
  signature.length == 2 * width &&
    match key.curve.domain? with
    | some domain =>
      holds domain (.ofPair key.x key.y) (messageNumber domain hash message)
        (Bytes.toNat (signature.take width)) (Bytes.toNat (signature.drop width))
    | none => false

/-- A signature of any other length is refused. -/
theorem verify_eq_false_of_length {key : PublicKey} {signature : Bytes}
    (h : signature.length ≠ 2 * key.curve.width) (hash : Hash) (message : Bytes) :
    verify key hash message signature = false := by
  simp [verify, h]

theorem holds_eq_false_of_range {d : Curve.Domain} {r s : Nat}
    (h : ¬ (1 ≤ r ∧ r < d.order ∧ 1 ≤ s ∧ s < d.order)) (key : Curve.Point) (e : Nat) :
    holds d key e r s = false := by
  rw [holds, if_neg h]

/-- A signature with a number out of range is refused. -/
theorem verify_eq_false_of_range {key : PublicKey} {domain : Curve.Domain}
    (known : key.curve.domain? = some domain) {signature : Bytes}
    (h : ¬ (1 ≤ Bytes.toNat (signature.take key.curve.width)
      ∧ Bytes.toNat (signature.take key.curve.width) < domain.order
      ∧ 1 ≤ Bytes.toNat (signature.drop key.curve.width)
      ∧ Bytes.toNat (signature.drop key.curve.width) < domain.order))
    (hash : Hash) (message : Bytes) : verify key hash message signature = false := by
  simp [verify, known, holds_eq_false_of_range h]

end TokenCrypto.Ecdsa
