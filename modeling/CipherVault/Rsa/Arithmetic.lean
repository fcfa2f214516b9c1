/-!
# Modular arithmetic

Powers and inverses modulo a number, computed by squaring and by the extended Euclidean algorithm.
-/

namespace CipherVault.Rsa

/-- The power of `base` modulo `m` for an exponent of at most `bits` binary digits. -/
def powModBits : (bits : Nat) → (base exponent m : Nat) → Nat
  | 0, _, _, m => 1 % m
  | bits + 1, base, exponent, m =>
    let half := powModBits bits (base * base % m) (exponent / 2) m
    if exponent % 2 = 1 then base * half % m else half

/-- The power of `base` modulo `m`. -/
def powMod (base exponent m : Nat) : Nat :=
  powModBits (exponent.log2 + 1) base exponent m

/-- The last nonzero remainder of the Euclidean algorithm from `r0` and `r1`, with the coefficient
that belongs to it when `s0` and `s1` belong to those two. -/
def euclid (r0 r1 : Nat) (s0 s1 : Int) : Nat × Int :=
  if r1 = 0 then (r0, s0)
  else euclid r1 (r0 % r1) s1 (s0 - (r0 / r1 : Nat) * s1)
termination_by r1
decreasing_by exact Nat.mod_lt _ (by omega)

/-- The number below `m` whose product with `a` is one modulo `m`, if `a` is prime to `m`. -/
def inverse? (a m : Nat) : Option Nat :=
  let (divisor, coefficient) := euclid (a % m) m 1 0
  if divisor = 1 then some (coefficient % m).toNat else none

/-- What the squarings compute is the power. -/
theorem powModBits_eq (bits base exponent m : Nat) (h : exponent < Nat.pow 2 bits) :
    powModBits bits base exponent m = Nat.pow base exponent % m := by
  induction bits generalizing base exponent with
  | zero =>
    have : exponent = 0 := by simpa using h
    simp [powModBits, this]
  | succ bits ih =>
    have hhalf : exponent / 2 < Nat.pow 2 bits := by
      simp only [Nat.pow_eq, Nat.pow_succ] at h ⊢
      omega
    have hsquare : powModBits bits (base * base % m) (exponent / 2) m =
        Nat.pow base (2 * (exponent / 2)) % m := by
      rw [ih _ _ hhalf]
      simp only [Nat.pow_eq]
      rw [← Nat.pow_mod, Nat.pow_mul, Nat.pow_two]
    simp only [powModBits, hsquare]
    split
    · next hodd =>
      have hsplit : exponent = 2 * (exponent / 2) + 1 := by omega
      simp only [Nat.pow_eq]
      rw [Nat.mul_mod_mod, ← Nat.pow_succ', Nat.succ_eq_add_one, ← hsplit]
    · next heven =>
      have hsplit : exponent = 2 * (exponent / 2) := by omega
      rw [← hsplit]

theorem powMod_eq (base exponent m : Nat) :
    powMod base exponent m = Nat.pow base exponent % m :=
  powModBits_eq _ _ _ _ Nat.lt_log2_self

end CipherVault.Rsa
