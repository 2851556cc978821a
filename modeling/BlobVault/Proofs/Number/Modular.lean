import BlobVault.Number.Modular
import Mathlib.FieldTheory.Finite.Basic

/-!
# Powers modulo a number

Squaring and multiplying gives the power, and raising to a public and then to a secret exponent
leaves every number below the modulus as it was.

* `Modular.pow_eq` : `pow` is the power modulo the number;
* `Modular.pow_pow_of_primes` : exponents that are inverse to each other, for a product of two
  primes.
-/

namespace BlobVault.Modular

variable {m fuel base e acc : Nat}

theorem powTimes_eq (hfuel : e < 2 ^ fuel) (hacc : acc % m = acc) :
    powTimes m fuel base e acc = acc * base ^ e % m := by
  induction fuel generalizing base e acc with
  | zero =>
    obtain rfl : e = 0 := by simpa using hfuel
    rw [powTimes, pow_zero, mul_one, hacc]
  | succ fuel ih =>
    rw [powTimes]
    split
    · rename_i he
      rw [he, pow_zero, mul_one, hacc]
    · have hhalf : e / 2 < 2 ^ fuel := by
        rw [pow_succ] at hfuel
        omega
      have hsquare : (base * base % m) ^ (e / 2) ≡ base ^ (2 * (e / 2)) [MOD m] := by
        rw [pow_mul, sq]
        exact (Nat.mod_modEq _ _).pow _
      split
      · rename_i hodd
        have he : e = 2 * (e / 2) + 1 := by omega
        rw [ih hhalf (Nat.mod_mod _ _)]
        calc acc * base % m * (base * base % m) ^ (e / 2)
            ≡ acc * base * base ^ (2 * (e / 2)) [MOD m] := (Nat.mod_modEq _ _).mul hsquare
          _ = acc * base ^ e := by rw [mul_assoc, ← pow_succ', ← he]
      · rename_i heven
        have he : e = 2 * (e / 2) := by omega
        rw [ih hhalf hacc]
        calc acc * (base * base % m) ^ (e / 2)
            ≡ acc * base ^ (2 * (e / 2)) [MOD m] := hsquare.mul_left acc
          _ = acc * base ^ e := by rw [← he]

/-- Squaring and multiplying gives the power. -/
theorem pow_eq (base e m : Nat) : pow base e m = base ^ e % m := by
  rw [pow, powTimes_eq Nat.lt_log2_self (Nat.mod_mod _ _)]
  calc 1 % m * (base % m) ^ e
      ≡ 1 * base ^ e [MOD m] := (Nat.mod_modEq _ _).mul ((Nat.mod_modEq _ _).pow e)
    _ = base ^ e := one_mul _

theorem pow_lt (hm : 0 < m) (base e : Nat) : pow base e m < m := by
  rw [pow_eq]
  exact Nat.mod_lt _ hm

/-- Modulo a prime, exponents count modulo one less. -/
theorem pow_modEq_self {p k : Nat} (hp : p.Prime) (hk : k ≡ 1 [MOD p - 1]) (hpos : 0 < k)
    (x : Nat) : x ^ k ≡ x [MOD p] := by
  have : Fact p.Prime := ⟨hp⟩
  rw [← ZMod.natCast_eq_natCast_iff, Nat.cast_pow]
  by_cases hx : (x : ZMod p) = 0
  · rw [hx, zero_pow (by omega)]
  · obtain ⟨t, ht⟩ := (Nat.modEq_iff_dvd' (by omega)).1 hk.symm
    have hsplit : k = 1 + (p - 1) * t := by omega
    rw [hsplit, pow_add, pow_one, pow_mul, ZMod.pow_card_sub_one_eq_one hx, one_pow, mul_one]

/-- Raising to the one exponent and then to the other leaves every number below the modulus as it
was. -/
theorem pow_pow_of_primes {p q e d x : Nat} (hp : p.Prime) (hq : q.Prime) (hpq : p ≠ q)
    (hinverse : e * d ≡ 1 [MOD (p - 1) * (q - 1)]) (hx : x < p * q) :
    pow (pow x e (p * q)) d (p * q) = x := by
  have hpos : 0 < e * d := by
    -- one of the two primes is odd, so that nothing but one is congruent to one
    by_contra hzero
    obtain hzero : e * d = 0 := by omega
    rw [hzero, Nat.modEq_iff_dvd' (by omega)] at hinverse
    have hone := Nat.eq_one_of_mul_eq_one_left (Nat.dvd_one.1 hinverse)
    have hone' := Nat.eq_one_of_mul_eq_one_right (Nat.dvd_one.1 hinverse)
    omega
  have hcoprime : p.Coprime q := (Nat.coprime_primes hp hq).2 hpq
  have hself : x ^ (e * d) ≡ x [MOD p * q] :=
    (Nat.modEq_and_modEq_iff_modEq_mul hcoprime).1
      ⟨pow_modEq_self hp (hinverse.of_mul_right _) hpos x,
        pow_modEq_self hq (hinverse.of_mul_left _) hpos x⟩
  rw [pow_eq, pow_eq, ← Nat.pow_mod, ← pow_mul, hself, Nat.mod_eq_of_lt hx]

end BlobVault.Modular
