import TokenCrypto.Curve

/-!
# Key shapes

The descriptor of a key, which is what may be told about it without its secret part: the family it
belongs to, its size, its curve, and whether it is public. Whether an algorithm goes with a key is a
question about its shape.
-/

namespace TokenCrypto

/-- The family of a key. -/
inductive KeyFamily where
  | symmetric
  | rsa
  | ec
  | unknown
  deriving DecidableEq, Repr

def KeyFamily.name : KeyFamily → String
  | .symmetric => "oct"
  | .rsa => "RSA"
  | .ec => "EC"
  | .unknown => "unknown"

/-- The descriptor of a key: what may be told about it. -/
structure KeyShape where
  family : KeyFamily
  bitLength : Nat := 0
  curve : Option Curve := none
  isPublic : Bool := false
  deriving DecidableEq, Repr

end TokenCrypto
