/-!
# Arithmetic modulo a number

Powers and inverses modulo a number, as signatures need them.
-/

namespace TokenCrypto

/-- How many bits a number takes; none for zero. -/
def bitLength (n : Nat) : Nat := if n = 0 then 0 else Nat.log2 n + 1

namespace Modular

/-- The power of `base` modulo `m`, by squaring the base and halving the exponent. -/
def pow (m base exponent : Nat) : Nat :=
  if exponent = 0 then 1 % m
  else
    let rest := pow m (base * base % m) (exponent / 2)
    if exponent % 2 = 1 then base * rest % m else rest
termination_by exponent

/-- The inverse of a number modulo a prime: its power with an exponent two below the prime. -/
def inverse (prime n : Nat) : Nat := pow prime n (prime - 2)

end Modular

end TokenCrypto
