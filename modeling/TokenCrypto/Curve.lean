import TokenCrypto.Modular

/-!
# Elliptic curves

The curves that keys may lie on, `y² = x³ + a x + b` over a prime field, and the addition of points.
A point is kept as three coordinates that stand for `(x / z², y / z³)`; the point at infinity has
`z` zero. A key may also lie on a curve that is none of these; of such a curve no more is known than
what may be told about a key.

* `Curve.eq_known_of_name`: the name of a known curve belongs to that curve alone.
-/

namespace TokenCrypto

/-! ## Curves by name -/

/-- A curve whose numbers are known here. -/
inductive KnownCurve where
  | p256
  | p384
  | p521
  | k256
  | brainpool256
  deriving DecidableEq, Repr

namespace KnownCurve

def all : List KnownCurve := [.p256, .p384, .p521, .k256, .brainpool256]

def name : KnownCurve → String
  | .p256 => "secp256r1"
  | .p384 => "secp384r1"
  | .p521 => "secp521r1"
  | .k256 => "secp256k1"
  | .brainpool256 => "brainpoolP256r1"

def keyBits : KnownCurve → Nat
  | .p256 => 256
  | .p384 => 384
  | .p521 => 521
  | .k256 => 256
  | .brainpool256 => 256

def ofName? (name : String) : Option KnownCurve := all.find? (·.name == name)

theorem ofName?_name (curve : KnownCurve) : ofName? curve.name = some curve := by
  cases curve <;> decide

/-- No two known curves have the same name. -/
theorem eq_of_name {a b : KnownCurve} (h : a.name = b.name) : a = b := by
  have found := ofName?_name a
  rw [h, ofName?_name b] at found
  exact (Option.some.inj found).symm

end KnownCurve

/-- A curve of another name. -/
structure OtherCurve where
  name : String
  keyBits : Nat
  not_known : ∀ known : KnownCurve, name ≠ known.name
  deriving DecidableEq, Repr

/-- A curve that a key may lie on. -/
inductive Curve where
  | known (curve : KnownCurve)
  | other (curve : OtherCurve)
  deriving DecidableEq, Repr

namespace Curve

def name : Curve → String
  | known curve => curve.name
  | other curve => curve.name

/-- The known curve of a name. -/
def ofName? (name : String) : Option Curve := (KnownCurve.ofName? name).map known

def keyBits : Curve → Nat
  | known curve => curve.keyBits
  | other curve => curve.keyBits

/-- Octets in a number of that many bits. -/
def width (curve : Curve) : Nat := (curve.keyBits + 7) / 8

/-- The name of a known curve belongs to that curve alone. -/
theorem eq_known_of_name {curve : Curve} {k : KnownCurve} (h : curve.name = k.name) :
    curve = known k := by
  cases curve with
  | known curve => rw [KnownCurve.eq_of_name h]
  | other curve => exact absurd h (curve.not_known k)

/-! ## Numbers -/

/-- The numbers that a curve is given by: the field's prime, the coefficient of `x`, the order of
the base point, and the base point. -/
structure Domain where
  prime : Nat
  linear : Int
  order : Nat
  baseX : Nat
  baseY : Nat

end Curve

/-- The numbers that a curve is given by. -/
def KnownCurve.domain : KnownCurve → Curve.Domain
  | .p256 => {
      prime := 0xffffffff00000001000000000000000000000000ffffffffffffffffffffffff
      linear := -3
      order := 0xffffffff00000000ffffffffffffffffbce6faada7179e84f3b9cac2fc632551
      baseX := 0x6b17d1f2e12c4247f8bce6e563a440f277037d812deb33a0f4a13945d898c296
      baseY := 0x4fe342e2fe1a7f9b8ee7eb4a7c0f9e162bce33576b315ececbb6406837bf51f5 }
  | .p384 => {
      prime := 0xfffffffffffffffffffffffffffffffffffffffffffffffffffffffffffffffeffffffff0000000000000000ffffffff
      linear := -3
      order := 0xffffffffffffffffffffffffffffffffffffffffffffffffc7634d81f4372ddf581a0db248b0a77aecec196accc52973
      baseX := 0xaa87ca22be8b05378eb1c71ef320ad746e1d3b628ba79b9859f741e082542a385502f25dbf55296c3a545e3872760ab7
      baseY := 0x3617de4a96262c6f5d9e98bf9292dc29f8f41dbd289a147ce9da3113b5f0b8c00a60b1ce1d7e819d7a431d7c90ea0e5f }
  | .p521 => {
      prime := 0x01ffffffffffffffffffffffffffffffffffffffffffffffffffffffffffffffffffffffffffffffffffffffffffffffffffffffffffffffffffffffffffffffffff
      linear := -3
      order := 0x01fffffffffffffffffffffffffffffffffffffffffffffffffffffffffffffffffa51868783bf2f966b7fcc0148f709a5d03bb5c9b8899c47aebb6fb71e91386409
      baseX := 0x00c6858e06b70404e9cd9e3ecb662395b4429c648139053fb521f828af606b4d3dbaa14b5e77efe75928fe1dc127a2ffa8de3348b3c1856a429bf97e7e31c2e5bd66
      baseY := 0x011839296a789a3bc0045c8a5fb42c7d1bd998f54449579b446817afbd17273e662c97ee72995ef42640c550b9013fad0761353c7086a272c24088be94769fd16650 }
  | .k256 => {
      prime := 0xfffffffffffffffffffffffffffffffffffffffffffffffffffffffefffffc2f
      linear := 0
      order := 0xfffffffffffffffffffffffffffffffebaaedce6af48a03bbfd25e8cd0364141
      baseX := 0x79be667ef9dcbbac55a06295ce870b07029bfcdb2dce28d959f2815b16f81798
      baseY := 0x483ada7726a3c4655da4fbfc0e1108a8fd17b448a68554199c47d08ffb10d4b8 }
  | .brainpool256 => {
      prime := 0xa9fb57dba1eea9bc3e660a909d838d726e3bf623d52620282013481d1f6e5377
      linear := 0x7d5a0975fc2c3057eef67530417affe7fb8055c126dc5c6ce94a4b44f330b5d9
      order := 0xa9fb57dba1eea9bc3e660a909d838d718c397aa3b561a6f7901e0e82974856a7
      baseX := 0x8bd2aeb9cb7e57cb2c4b482ffc81b7afb9de27e1e3bd23c23a4453bd9ace3262
      baseY := 0x547ef835c3dac4fd97f8461a14611dc9c27745132ded8e545c1d54c72f046997 }

namespace Curve

/-- The numbers of a curve, if they are known. -/
def domain? : Curve → Option Domain
  | known curve => some curve.domain
  | other _ => none

/-! ## Points -/

/-- A point in three coordinates. -/
structure Point where
  x : Int
  y : Int
  z : Int
  deriving DecidableEq, Repr

namespace Point

def infinity : Point := ⟨1, 1, 0⟩

def ofPair (x y : Nat) : Point := ⟨x, y, 1⟩

/-- A point added to itself. -/
def double (d : Domain) (p : Point) : Point :=
  let m : Int := d.prime
  if p.z % m = 0 ∨ p.y % m = 0 then infinity
  else
    let yy := p.y * p.y % m
    let zz := p.z * p.z % m
    let s := 4 * p.x * yy % m
    let slope := (3 * p.x * p.x + d.linear * zz * zz) % m
    let x := (slope * slope - 2 * s) % m
    ⟨x, (slope * (s - x) - 8 * yy * yy) % m, 2 * p.y * p.z % m⟩

/-- The sum of two points. -/
def add (d : Domain) (p q : Point) : Point :=
  let m : Int := d.prime
  if p.z % m = 0 then q
  else if q.z % m = 0 then p
  else
    let pz := p.z * p.z % m
    let qz := q.z * q.z % m
    let u := p.x * qz % m
    let s := p.y * qz * q.z % m
    let h := (q.x * pz - u) % m
    let r := (q.y * pz * p.z - s) % m
    if h = 0 then if r = 0 then double d p else infinity
    else
      let hh := h * h % m
      let hhh := hh * h % m
      let v := u * hh % m
      let x := (r * r - hhh - 2 * v) % m
      ⟨x, (r * (v - x) - s * hhh) % m, p.z * q.z * h % m⟩

/-- A point added to itself `n` times, by doubling the point and halving `n`. -/
def times (d : Domain) (n : Nat) (p : Point) : Point :=
  if n = 0 then infinity
  else
    let rest := times d (n / 2) (double d p)
    if n % 2 = 1 then add d rest p else rest
termination_by n

/-- The first of a point's two coordinates; none at infinity. -/
def abscissa? (d : Domain) (p : Point) : Option Nat :=
  let m : Int := d.prime
  if p.z % m = 0 then none
  else
    let inverse : Int := Modular.inverse d.prime (p.z % m).toNat
    some (p.x * inverse * inverse % m).toNat

end Point

def Domain.base (d : Domain) : Point := .ofPair d.baseX d.baseY

end Curve

end TokenCrypto
