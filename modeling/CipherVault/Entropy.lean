import CipherVault.Bytes
/-!
# Random choices

Whatever an operation draws at random is an argument: an unending supply of bytes and one of nonzero
bytes.  Every outcome of the random draws is some `Entropy`, so a statement for all of them is a
statement for every outcome.
-/

namespace CipherVault

structure Entropy where
  byte : Nat → Byte
  nonZero : Nat → { b : Byte // b ≠ 0 }

namespace Entropy

/-- The supply behind the first `count` bytes of both kinds. -/
def skip (entropy : Entropy) (count : Nat) : Entropy :=
  ⟨fun i => entropy.byte (count + i), fun i => entropy.nonZero (count + i)⟩

/-- The first `length` bytes. -/
def bytes (entropy : Entropy) (length : Nat) : Bytes :=
  (List.range length).map entropy.byte

/-- The first `length` nonzero bytes. -/
def nonZeroBytes (entropy : Entropy) (length : Nat) : Bytes :=
  (List.range length).map fun i => (entropy.nonZero i).val

@[simp]
theorem length_bytes (entropy : Entropy) (length : Nat) :
    (entropy.bytes length).length = length := by
  simp [bytes]

@[simp]
theorem length_nonZeroBytes (entropy : Entropy) (length : Nat) :
    (entropy.nonZeroBytes length).length = length := by
  simp [nonZeroBytes]

end Entropy

end CipherVault
