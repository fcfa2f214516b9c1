import CipherVault.Bytes
import CipherVault.Rsa.Arithmetic
/-!
# RSA keys

A public key is any pair of numbers, as it can be put together without a check; what a reader of
keys checks, and every encryption once more, is a condition on it.  A private key carries the
relations that its readers check.  Whether its factors are prime is not among them.
-/

namespace CipherVault.Rsa

/-- Largest public exponent. -/
def maxExponent : Nat := 0x1ffffffff

/-- A modulus and a public exponent, of which nothing is known. -/
structure PublicKey where
  modulus : Nat
  exponent : Nat
deriving DecidableEq

/-- Why a public key is not used. -/
inductive KeyFault where
  | exponentTooLarge
  | invalidModulus
  | invalidExponent
  | exponentTooSmall
deriving DecidableEq, Repr

def KeyFault.message : KeyFault → String
  | exponentTooLarge => "public exponent too large"
  | invalidModulus => "invalid modulus"
  | invalidExponent => "invalid exponent"
  | exponentTooSmall => "public exponent too small"

namespace PublicKey

/-- What the modulus and the exponent of a key have to satisfy. -/
def IsValid (key : PublicKey) : Prop :=
  key.exponent < key.modulus ∧ key.modulus % 2 = 1 ∧ key.exponent % 2 = 1 ∧ 2 ≤ key.exponent ∧
    key.exponent ≤ maxExponent

instance (key : PublicKey) : Decidable key.IsValid := by
  unfold IsValid
  infer_instance

/-- The first check that a key fails.  An exponent of more than 64 bits is refused before the
modulus is looked at. -/
def fault? (key : PublicKey) : Option KeyFault :=
  if Nat.pow 2 64 ≤ key.exponent then some .exponentTooLarge
  else if key.modulus ≤ key.exponent ∨ key.modulus % 2 = 0 then some .invalidModulus
  else if key.exponent % 2 = 0 then some .invalidExponent
  else if key.exponent < 2 then some .exponentTooSmall
  else if maxExponent < key.exponent then some .exponentTooLarge
  else none

/-- The key with these numbers, if it is valid. -/
def ofNumbers? (modulus exponent : Nat) : Option PublicKey :=
  let key : PublicKey := ⟨modulus, exponent⟩
  if key.IsValid then some key else none

end PublicKey

/-- What a private exponent and two factors have to satisfy beside a public key. -/
def ValidPrivate (key : PublicKey) (exponent factor1 factor2 : Nat) : Prop :=
  key.IsValid ∧ 1 < factor1 ∧ 1 < factor2 ∧ factor1 * factor2 = key.modulus ∧
    exponent * key.exponent % (factor1 - 1) = 1 ∧ exponent * key.exponent % (factor2 - 1) = 1

instance (key : PublicKey) (exponent factor1 factor2 : Nat) :
    Decidable (ValidPrivate key exponent factor1 factor2) := by
  unfold ValidPrivate
  infer_instance

/-- A private key with two factors that passes the check of its readers.  Keys of three factors and
more, which have no encoding, and keys put together without the check are not described. -/
structure PrivateKey where
  publicKey : PublicKey
  exponent : Nat
  factor1 : Nat
  factor2 : Nat
  valid : ValidPrivate publicKey exponent factor1 factor2
deriving DecidableEq

/-- The key with these numbers, if they satisfy the relations. -/
def PrivateKey.ofNumbers? (modulus publicExponent exponent factor1 factor2 : Nat) :
    Option PrivateKey :=
  let key : PublicKey := ⟨modulus, publicExponent⟩
  if valid : ValidPrivate key exponent factor1 factor2 then
    some ⟨key, exponent, factor1, factor2, valid⟩
  else none

namespace PublicKey

/-- The number of bytes of the modulus: the length of every ciphertext block. -/
def size (key : PublicKey) : Nat :=
  Bytes.byteLength key.modulus

/-- The public operation. -/
def raise (key : PublicKey) (message : Nat) : Nat :=
  powMod message key.exponent key.modulus

end PublicKey

namespace PrivateKey

def size (key : PrivateKey) : Nat :=
  key.publicKey.size

theorem modulus_pos (key : PrivateKey) : 0 < key.publicKey.modulus :=
  Nat.zero_lt_of_lt key.valid.1.1

theorem size_pos (key : PrivateKey) : 0 < key.size := by
  rw [size, PublicKey.size, Bytes.byteLength, if_neg (Nat.ne_of_gt key.modulus_pos)]
  exact Nat.succ_pos _

/-- The private exponent reduced for the first factor. -/
def exponent1 (key : PrivateKey) : Nat :=
  key.exponent % (key.factor1 - 1)

/-- The private exponent reduced for the second factor. -/
def exponent2 (key : PrivateKey) : Nat :=
  key.exponent % (key.factor2 - 1)

/-- The inverse of the second factor modulo the first. -/
def coefficient? (key : PrivateKey) : Option Nat :=
  inverse? key.factor2 key.factor1

/-- The private operation before its check: by the two factors if they are prime to each other, else
by the whole modulus. -/
def power (key : PrivateKey) (ciphertext : Nat) : Nat :=
  match key.coefficient? with
  | some coefficient =>
    let m1 := powMod ciphertext key.exponent1 key.factor1
    let m2 := powMod ciphertext key.exponent2 key.factor2
    let h := ((m1 : Int) - m2) * coefficient % key.factor1
    h.toNat * key.factor2 + m2
  | none => powMod ciphertext key.exponent key.publicKey.modulus

/-- The private operation: for numbers below the modulus, and only if the public operation leads
back. -/
def recover? (key : PrivateKey) (ciphertext : Nat) : Option Nat :=
  if ciphertext < key.publicKey.modulus then
    let message := key.power ciphertext
    if key.publicKey.raise message = ciphertext then some message else none
  else none

end PrivateKey

end CipherVault.Rsa
