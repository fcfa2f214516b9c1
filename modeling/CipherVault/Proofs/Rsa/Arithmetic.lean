import CipherVault.Rsa.Arithmetic
import Mathlib.FieldTheory.Finite.Basic
/-!
# Inverses, Fermat's theorem and recombination

The extended Euclidean algorithm finds inverses; a power whose exponent is one modulo `p - 1` is the
base modulo a prime `p`; and a number below a product is recombined from its remainders by the two
factors.
-/

namespace CipherVault.Rsa

/-- Every remainder of the Euclidean algorithm is a multiple of `a` by the coefficient beside it. -/
theorem euclid_modEq {a m : Int} {r0 r1 : Nat} {s0 s1 : Int} (h0 : (r0 : Int) ≡ s0 * a [ZMOD m])
    (h1 : (r1 : Int) ≡ s1 * a [ZMOD m]) :
    ((euclid r0 r1 s0 s1).1 : Int) ≡ (euclid r0 r1 s0 s1).2 * a [ZMOD m] := by
  fun_induction euclid r0 r1 s0 s1 with
  | case1 r0 s0 s1 => exact h0
  | case2 r0 r1 s0 s1 hr1 ih =>
    apply ih h1
    calc ((r0 % r1 : Nat) : Int)
      _ = r0 - (r0 / r1 : Nat) * r1 := by
        rw [Int.natCast_mod, Int.emod_def, Int.natCast_div, mul_comm]
      _ ≡ s0 * a - (r0 / r1 : Nat) * (s1 * a) [ZMOD m] := h0.sub (h1.mul_left _)
      _ = (s0 - (r0 / r1 : Nat) * s1) * a := by ring

/-- What is found to be an inverse is one. -/
theorem modEq_of_inverse? {a m c : Nat} (hm : 0 < m) (h : inverse? a m = some c) :
    c * a ≡ 1 [MOD m] := by
  have hfirst : ((a % m : Nat) : Int) ≡ 1 * a [ZMOD m] := by
    rw [one_mul, Int.natCast_mod]
    exact Int.mod_modEq _ _
  have hsecond : ((m : Nat) : Int) ≡ 0 * a [ZMOD m] := by
    rw [zero_mul]
    exact Int.modEq_zero_iff_dvd.mpr dvd_rfl
  have hlast := euclid_modEq hfirst hsecond
  rw [inverse?] at h
  dsimp only at h
  split at h
  · next hdivisor =>
    cases h
    rw [hdivisor] at hlast
    have hpos : (m : Int) ≠ 0 := by exact_mod_cast hm.ne'
    have hinverse : ((euclid (a % m) m 1 0).2 % m).toNat * (a : Int) ≡ 1 [ZMOD m] :=
      calc ((euclid (a % m) m 1 0).2 % m).toNat * (a : Int)
        _ = (euclid (a % m) m 1 0).2 % m * a := by
          rw [Int.toNat_of_nonneg (Int.emod_nonneg _ hpos)]
        _ ≡ (euclid (a % m) m 1 0).2 * a [ZMOD m] := (Int.mod_modEq _ _).mul_right _
        _ ≡ 1 [ZMOD m] := hlast.symm
    exact_mod_cast hinverse
  · cases h

theorem lt_of_inverse? {a m c : Nat} (hm : 0 < m) (h : inverse? a m = some c) : c < m := by
  rw [inverse?] at h
  dsimp only at h
  split at h
  · cases h
    have hless := Int.emod_lt_of_pos (euclid (a % m) m 1 0).2 (Int.natCast_pos.mpr hm)
    omega
  · cases h

/-- Fermat's theorem for exponents that are one modulo `p - 1`. -/
theorem pow_modEq_self {p k : Nat} (hp : p.Prime) (hk : k % (p - 1) = 1) (m : Nat) :
    m ^ k ≡ m [MOD p] := by
  have hsplit : k = 1 + (p - 1) * (k / (p - 1)) :=
    calc k = k % (p - 1) + (p - 1) * (k / (p - 1)) := (Nat.mod_add_div _ _).symm
      _ = 1 + (p - 1) * (k / (p - 1)) := by rw [hk]
  by_cases hdvd : p ∣ m
  · have hzero : m ≡ 0 [MOD p] := (Nat.modEq_zero_iff_dvd).mpr hdvd
    calc m ^ k ≡ 0 ^ k [MOD p] := hzero.pow k
      _ = 0 := zero_pow (by omega)
      _ ≡ m [MOD p] := hzero.symm
  · have hcoprime : Nat.Coprime m p := ((Nat.Prime.coprime_iff_not_dvd hp).mpr hdvd).symm
    have hfermat : m ^ (p - 1) ≡ 1 [MOD p] := by
      rw [← Nat.totient_prime hp]
      exact Nat.ModEq.pow_totient hcoprime
    calc m ^ k = m * (m ^ (p - 1)) ^ (k / (p - 1)) := by
          rw [← pow_mul, ← pow_succ', add_comm, ← hsplit]
      _ ≡ m * 1 ^ (k / (p - 1)) [MOD p] := (hfermat.pow _).mul_left m
      _ = m := by rw [one_pow, mul_one]

/-- A number below a product, from its remainders by the two factors. -/
theorem recombine {p q c m : Nat} (hinverse : c * q ≡ 1 [MOD p]) (hm : m < p * q) :
    ((((m % p : Nat) : Int) - (m % q : Nat)) * c % p).toNat * q + m % q = m := by
  have hquotient : (((m % p : Nat) : Int) - (m % q : Nat)) * c ≡ (m / q : Nat) [ZMOD p] :=
    calc (((m % p : Nat) : Int) - (m % q : Nat)) * c
      _ ≡ ((m : Int) - (m % q : Nat)) * c [ZMOD p] := by
        rw [Int.natCast_mod m p]
        exact ((Int.mod_modEq _ _).sub_right _).mul_right _
      _ = (m / q : Nat) * (c * q : Nat) := by
        have hsplit : (m : Int) = q * (m / q : Nat) + (m % q : Nat) := by
          exact_mod_cast (Nat.div_add_mod m q).symm
        rw [Nat.cast_mul]
        linear_combination (c : Int) * hsplit
      _ ≡ (m / q : Nat) * 1 [ZMOD p] := by
        apply Int.ModEq.mul_left
        exact_mod_cast hinverse
      _ = (m / q : Nat) := mul_one _
  have hless : m / q < p := Nat.div_lt_of_lt_mul (by rwa [mul_comm])
  have hvalue : (((m % p : Nat) : Int) - (m % q : Nat)) * c % p = (m / q : Nat) :=
    calc (((m % p : Nat) : Int) - (m % q : Nat)) * c % p
      _ = (m / q : Nat) % p := hquotient
      _ = (m / q : Nat) := by exact_mod_cast Nat.mod_eq_of_lt hless
  rw [hvalue, Int.toNat_natCast, mul_comm, Nat.div_add_mod]

end CipherVault.Rsa
