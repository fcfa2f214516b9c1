import CipherVault.Proofs.Bytes
import CipherVault.Proofs.Rsa.Arithmetic
import CipherVault.Proofs.Rsa.Padding
import CipherVault.Rsa.Cipher
/-!
# The private key recovers blocks

Under a key whose factors are two different primes the private operation undoes the public one on
every number below the modulus.  So every chunk that leaves room for the padding is found again in
its block.
-/

namespace CipherVault.Rsa

namespace PublicKey

variable {key : PublicKey}

theorem raise_eq (key : PublicKey) (message : Nat) :
    key.raise message = message ^ key.exponent % key.modulus :=
  powMod_eq _ _ _

theorem raise_lt (hmodulus : 0 < key.modulus) (message : Nat) :
    key.raise message < key.modulus := by
  rw [raise_eq]
  exact Nat.mod_lt _ hmodulus

/-- A block that starts with a zero byte is read as a number below the modulus. -/
theorem toNat_lt_modulus (hmodulus : 0 < key.modulus) {rest : Bytes}
    (h : rest.length + 1 = key.size) :
    Bytes.toNat (0 :: rest) < key.modulus :=
  calc Bytes.toNat (0 :: rest)
    _ = Bytes.toNat rest := by
      rw [Bytes.toNat_cons, UInt8.toNat_zero, Nat.zero_mul, Nat.zero_add]
    _ < Nat.pow 256 rest.length := Bytes.toNat_lt rest
    _ = Nat.pow 256 (key.size - 1) := by rw [← h, Nat.add_sub_cancel]
    _ ≤ key.modulus := Bytes.pow_le_of_byteLength hmodulus

@[simp]
theorem length_encryptBlock (padding : Padding) (entropy : Entropy) (chunk : Bytes) :
    (key.encryptBlock padding entropy chunk).length = key.size :=
  Bytes.length_ofNat _ _

end PublicKey

namespace PrivateKey

variable {key : PrivateKey}

/-- The factors are two different primes. -/
structure PrimeFactors (key : PrivateKey) : Prop where
  prime1 : key.factor1.Prime
  prime2 : key.factor2.Prime
  distinct : key.factor1 ≠ key.factor2

/-- The key finds every chunk that leaves room for the padding in its block, whatever bytes the
padding drew. -/
def RecoversChunks (key : PrivateKey) (padding : Padding) : Prop :=
  ∀ (entropy : Entropy) (chunk : Bytes), chunk.length + padding.overhead ≤ key.size →
    key.decryptBlock? padding (key.publicKey.encryptBlock padding entropy chunk) = some chunk

/-- Modulo a prime factor, the reduced private exponent undoes the public one. -/
theorem powMod_reduced {p d e c m : Nat} (hp : p.Prime) (hexponents : d * e % (p - 1) = 1)
    (hc : c ≡ m ^ e [MOD p]) : powMod c (d % (p - 1)) p = m % p := by
  have hreduced : e * (d % (p - 1)) % (p - 1) = 1 := by
    rw [Nat.mul_mod_mod, Nat.mul_comm, hexponents]
  rw [powMod_eq]
  calc c ^ (d % (p - 1)) ≡ (m ^ e) ^ (d % (p - 1)) [MOD p] := hc.pow _
    _ = m ^ (e * (d % (p - 1))) := (pow_mul _ _ _).symm
    _ ≡ m [MOD p] := pow_modEq_self hp hreduced m

theorem power_raise (hkey : key.PrimeFactors) {message : Nat}
    (h : message < key.publicKey.modulus) : key.power (key.publicKey.raise message) = message := by
  obtain ⟨-, -, -, hmodulus, hexponents1, hexponents2⟩ := key.valid
  have hraise : key.publicKey.raise message ≡ message ^ key.publicKey.exponent
      [MOD key.publicKey.modulus] := by
    rw [PublicKey.raise_eq]
    exact Nat.mod_modEq _ _
  have hraise1 := hraise.of_dvd (Dvd.intro _ hmodulus)
  have hraise2 := hraise.of_dvd (Dvd.intro_left _ hmodulus)
  rw [power]
  split
  · next coefficient hcoefficient =>
    have hinverse := modEq_of_inverse? hkey.prime1.pos hcoefficient
    rw [exponent1, exponent2, powMod_reduced hkey.prime1 hexponents1 hraise1,
      powMod_reduced hkey.prime2 hexponents2 hraise2]
    exact recombine hinverse (hmodulus ▸ h)
  -- By the whole modulus: congruences by both factors are one by their product.
  · have hcoprime : Nat.Coprime key.factor1 key.factor2 :=
      (Nat.coprime_primes hkey.prime1 hkey.prime2).mpr hkey.distinct
    have hboth : (message ^ key.publicKey.exponent) ^ key.exponent ≡ message
        [MOD key.publicKey.modulus] := by
      rw [← pow_mul, ← hmodulus, ← Nat.modEq_and_modEq_iff_modEq_mul hcoprime, mul_comm]
      exact ⟨pow_modEq_self hkey.prime1 hexponents1 _, pow_modEq_self hkey.prime2 hexponents2 _⟩
    rw [powMod_eq]
    calc key.publicKey.raise message ^ key.exponent % key.publicKey.modulus
      _ = message % key.publicKey.modulus := (hraise.pow _).trans hboth
      _ = message := Nat.mod_eq_of_lt h

/-- The private operation undoes the public one. -/
theorem recover?_raise (hkey : key.PrimeFactors) {message : Nat}
    (h : message < key.publicKey.modulus) :
    key.recover? (key.publicKey.raise message) = some message := by
  rw [recover?, if_pos (PublicKey.raise_lt key.modulus_pos message)]
  dsimp only
  rw [power_raise hkey h, if_pos rfl]

/-- Two different primes are all that a key needs. -/
theorem recoversChunks (hkey : key.PrimeFactors) (padding : Padding) :
    key.RecoversChunks padding := by
  intro entropy chunk hlength
  have hroom : chunk.length + padding.overhead ≤ key.publicKey.size := hlength
  obtain ⟨rest, hpad, hrest⟩ := Padding.exists_pad hroom entropy
  have hmessage : Bytes.toNat (0 :: rest) < key.publicKey.modulus :=
    PublicKey.toNat_lt_modulus key.modulus_pos hrest
  have hblock : Bytes.toNat (key.publicKey.encryptBlock padding entropy chunk) =
      key.publicKey.raise (Bytes.toNat (0 :: rest)) := by
    rw [PublicKey.encryptBlock, hpad, Bytes.toNat_ofNat]
    apply Nat.mod_eq_of_lt
    exact (PublicKey.raise_lt key.modulus_pos _).trans
      (Bytes.lt_pow_byteLength key.publicKey.modulus)
  have hpadded : Bytes.ofNat key.publicKey.size (Bytes.toNat (0 :: rest)) = 0 :: rest := by
    rw [← hrest]
    exact Bytes.ofNat_toNat (0 :: rest)
  rw [decryptBlock?, hblock, recover?_raise hkey hmessage]
  change padding.unpad? (Bytes.ofNat key.publicKey.size (Bytes.toNat (0 :: rest))) = some chunk
  rw [hpadded, ← hpad]
  exact Padding.unpad?_pad hroom entropy

end PrivateKey

end CipherVault.Rsa
