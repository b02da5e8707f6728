/-! # Arithmetic modulo a prime

Residues are numbers below a modulus. `pow` is the power (`pow_eq`); with it come the
inverse, by the little theorem of Fermat, and the square root for primes that are one less than a
multiple of four. -/

namespace ForgeGateway.Key.Residue

def pow (m b : Nat) (e : Nat) : Nat :=
  if e = 0 then 1 % m
  else
    let half := pow m (b * b % m) (e / 2)
    if e % 2 = 1 then half * b % m else half

theorem pow_eq (m b e : Nat) : pow m b e = Nat.pow b e % m := by
  induction e using Nat.strongRecOn generalizing b with
  | ind e ih =>
    unfold pow
    split
    · next h => subst h; rfl
    · next h =>
      have half : pow m (b * b % m) (e / 2) = Nat.pow b (e / 2 * 2) % m := by
        rw [ih (e / 2) (by omega)]
        show (b * b % m) ^ (e / 2) % m = b ^ (e / 2 * 2) % m
        rw [← Nat.pow_mod, ← Nat.pow_two, ← Nat.pow_mul, Nat.mul_comm 2]
      simp only [half]
      split
      · next odd =>
        have step : e = e / 2 * 2 + 1 := by omega
        calc Nat.pow b (e / 2 * 2) % m * b % m
            = Nat.pow b (e / 2 * 2) * b % m := Nat.mod_mul_mod ..
          _ = Nat.pow b (e / 2 * 2 + 1) % m := rfl
          _ = Nat.pow b e % m := by rw [← step]
      · next even =>
        have step : e / 2 * 2 = e := by omega
        rw [step]

def sub (m a b : Nat) : Nat := (a + (m - b % m)) % m

/-- The residue that multiplies with `a` to one. -/
def inverse (p a : Nat) : Nat := pow p a (p - 2)

/-- A residue with the square `a`, if there is one. -/
def root? (p a : Nat) : Option Nat :=
  let r := pow p a ((p + 1) / 4)
  if r * r % p = a % p then some r else none

end ForgeGateway.Key.Residue
