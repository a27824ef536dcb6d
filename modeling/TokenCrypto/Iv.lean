import TokenCrypto.Material.Octets

/-!
# Initialization vectors

An initialization vector (IV) has the length that its method asks for. It is handed in, or drawn
from a source of randomness, which is a parameter here: what is drawn has the length asked for if
the source gives it.

* `Iv.check_eq_ok_iff`: exactly the values of the right size pass.
-/

namespace TokenCrypto.Iv

/-- The greatest number of octets that may be drawn. -/
def greatestSize : Nat := 64

/-- Refuses an IV that has not `expected` items. Whether they are octets shows when they are used.
-/
def check (iv : Material) (expected : Int) (algorithm : String) : Except Error Unit := do
  let size ← iv.size
  if size = expected then return () else reject (.ivLength algorithm size expected)

/-- The number of octets that a value asks for; what is no number asks for none. -/
def requestedSize? : Json.Value → Option Int
  | .integer n => some n
  | .bool true => some 1
  | .bool false => some 0
  | _ => none

/-- An IV of so many octets, drawn from a source. -/
def generate (draw : Nat → Bytes) (size : Option Int) : Except Error Bytes :=
  match size with
  | some n => if 0 < n ∧ n ≤ greatestSize then .ok (draw n.toNat) else fail .ivSize
  | none => fail .ivSize

/-- Octets are refused unless there are `expected` of them. -/
theorem check_octets (iv : Bytes) (expected : Int) (algorithm : String) :
    check (.octets iv) expected algorithm =
      if iv.length = expected then .ok ()
      else reject (.ivLength algorithm iv.length expected) := rfl

/-- Exactly the values of the right size pass. -/
theorem check_eq_ok_iff {iv : Material} {expected : Int} {algorithm : String} :
    check iv expected algorithm = .ok () ↔ ∃ n : Nat, iv.size? = some n ∧ n = expected := by
  unfold check Material.size
  cases iv.size? with
  | none => simp [fail, bind, Except.bind]
  | some n =>
    simp only [bind, Except.bind, Option.some.injEq, exists_eq_left']
    split <;> simp_all [reject, pure, Except.pure]

end TokenCrypto.Iv
