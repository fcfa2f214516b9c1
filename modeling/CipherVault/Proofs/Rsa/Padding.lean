import CipherVault.Proofs.Aead
import CipherVault.Rsa.Padding
/-!
# Padding is removed again

A chunk that leaves room for the overhead is padded to a block of the size of the modulus, whose
first byte is zero, and is found again in that block, whatever the random bytes are.
-/

namespace CipherVault.Rsa

variable {size : Nat} {chunk : Bytes}

namespace Pkcs1

theorem exists_pad (h : chunk.length + 11 ≤ size) (entropy : Entropy) :
    ∃ rest, pad size entropy chunk = 0 :: rest ∧ rest.length + 1 = size := by
  refine ⟨_, rfl, ?_⟩
  simp only [List.length_cons, List.length_append, Entropy.length_nonZeroBytes]
  omega

theorem takeWhile_nonZeroBytes (entropy : Entropy) (length : Nat) (rest : Bytes) :
    (entropy.nonZeroBytes length ++ 0 :: rest).takeWhile (· ≠ 0) = entropy.nonZeroBytes length := by
  have hnonZero : ∀ b ∈ entropy.nonZeroBytes length, decide (b ≠ 0) = true := by
    intro b hmem
    obtain ⟨i, -, rfl⟩ := List.mem_map.mp hmem
    exact decide_eq_true (entropy.nonZero i).property
  rw [List.takeWhile_append_of_pos hnonZero, List.takeWhile_cons_of_neg (by decide),
    List.append_nil]

theorem unpad?_pad (h : chunk.length + 11 ≤ size) (entropy : Entropy) :
    unpad? (pad size entropy chunk) = some chunk := by
  have hlong : 8 ≤ (entropy.nonZeroBytes (size - chunk.length - 3)).length := by
    rw [Entropy.length_nonZeroBytes]
    omega
  have hfound : (entropy.nonZeroBytes (size - chunk.length - 3)).length <
      (entropy.nonZeroBytes (size - chunk.length - 3) ++ 0 :: chunk).length := by
    rw [List.length_append, List.length_cons]
    omega
  rw [pad, unpad?, takeWhile_nonZeroBytes, if_pos ⟨rfl, rfl, hlong, hfound⟩, List.append_cons]
  exact congrArg some (List.drop_left' List.length_append)

end Pkcs1

namespace Oaep

@[simp]
theorem length_maskBlocks (seed : Bytes) (count counter : Nat) :
    (maskBlocks seed count counter).length = 32 * count := by
  induction count generalizing counter with
  | zero => rfl
  | succ count ih =>
    rw [maskBlocks, List.length_append, ih, Sha256.length_hash]
    omega

theorem length_le_maskBlocks (seed bs : Bytes) (counter : Nat) :
    bs.length ≤ (maskBlocks seed ((bs.length + 31) / 32) counter).length := by
  rw [length_maskBlocks]
  omega

@[simp]
theorem length_mask (seed bs : Bytes) : (mask seed bs).length = bs.length := by
  rw [mask, Bytes.length_xor]
  exact Nat.min_eq_left (length_le_maskBlocks seed bs 0)

/-- Masking twice with one seed changes nothing. -/
@[simp]
theorem mask_mask (seed bs : Bytes) : mask seed (mask seed bs) = bs := by
  rw [mask, length_mask]
  exact Bytes.xor_xor (length_le_maskBlocks seed bs 0)

theorem length_labelHash : labelHash.length = hashLength := Sha256.length_hash []

/-- The label's hash, zeros, a one and the chunk: what is masked. -/
def dataBlock (size : Nat) (chunk : Bytes) : Bytes :=
  labelHash ++ List.replicate (size - chunk.length - 66) 0 ++ 1 :: chunk

theorem length_dataBlock (h : chunk.length + 66 ≤ size) :
    (dataBlock size chunk).length + 33 = size := by
  simp only [dataBlock, List.length_append, List.length_replicate, List.length_cons,
    length_labelHash, hashLength]
  omega

theorem pad_eq (size : Nat) (entropy : Entropy) (chunk : Bytes) :
    pad size entropy chunk =
      0 :: (mask (mask (entropy.bytes hashLength) (dataBlock size chunk))
        (entropy.bytes hashLength) ++ mask (entropy.bytes hashLength) (dataBlock size chunk)) := rfl

theorem exists_pad (h : chunk.length + 66 ≤ size) (entropy : Entropy) :
    ∃ rest, pad size entropy chunk = 0 :: rest ∧ rest.length + 1 = size := by
  refine ⟨_, pad_eq size entropy chunk, ?_⟩
  have hdata := length_dataBlock h
  simp only [List.length_append, length_mask, Entropy.length_bytes, hashLength]
  omega

theorem unpad?_pad (h : chunk.length + 66 ≤ size) (entropy : Entropy) :
    unpad? (pad size entropy chunk) = some chunk := by
  have hdata := length_dataBlock h
  have hseed : (mask (mask (entropy.bytes hashLength) (dataBlock size chunk))
      (entropy.bytes hashLength)).length = hashLength := by
    rw [length_mask, Entropy.length_bytes]
  have hlong : ¬(mask (mask (entropy.bytes hashLength) (dataBlock size chunk))
        (entropy.bytes hashLength) ++
      mask (entropy.bytes hashLength) (dataBlock size chunk)).length < 2 * hashLength + 1 := by
    rw [List.length_append, hseed, length_mask, hashLength]
    omega
  have hlabel : (dataBlock size chunk).take hashLength = labelHash := by
    rw [dataBlock, List.append_assoc]
    exact List.take_left' length_labelHash
  have hrest : ((dataBlock size chunk).drop hashLength).dropWhile (· = 0) = 1 :: chunk := by
    rw [dataBlock, List.append_assoc, List.drop_left' length_labelHash,
      List.dropWhile_append_of_pos (by simp), List.dropWhile_cons_of_neg (by decide)]
  rw [pad_eq, unpad?, if_neg hlong]
  dsimp only
  rw [List.take_left' hseed, List.drop_left' hseed, mask_mask, mask_mask, hrest, hlabel]
  exact if_pos ⟨rfl, rfl, rfl⟩

end Oaep

namespace Padding

theorem exists_pad {padding : Padding} (h : chunk.length + padding.overhead ≤ size)
    (entropy : Entropy) :
    ∃ rest, padding.pad size entropy chunk = 0 :: rest ∧ rest.length + 1 = size := by
  cases padding with
  | pkcs1 => exact Pkcs1.exists_pad h entropy
  | oaepSha256 => exact Oaep.exists_pad h entropy

theorem unpad?_pad {padding : Padding} (h : chunk.length + padding.overhead ≤ size)
    (entropy : Entropy) : padding.unpad? (padding.pad size entropy chunk) = some chunk := by
  cases padding with
  | pkcs1 => exact Pkcs1.unpad?_pad h entropy
  | oaepSha256 => exact Oaep.unpad?_pad h entropy

end Padding

end CipherVault.Rsa
