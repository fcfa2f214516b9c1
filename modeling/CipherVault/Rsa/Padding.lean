import CipherVault.Entropy
import CipherVault.Hash.Sha256
/-!
# RSA encryption padding

PKCS#1 v1.5 and OAEP with SHA-256, MGF1 and an empty label.  Both turn a chunk into a block as long
as the modulus whose first byte is zero, and back.
-/

namespace CipherVault.Rsa

inductive Padding where
  | pkcs1
  | oaepSha256
deriving DecidableEq, Repr

namespace Padding

/-- Bytes of a block that hold no data. -/
def overhead : Padding → Nat
  | pkcs1 => 11
  | oaepSha256 => 66

end Padding

namespace Pkcs1

/-- Zero, two, random nonzero bytes, zero, data. -/
def pad (size : Nat) (entropy : Entropy) (chunk : Bytes) : Bytes :=
  0 :: 2 :: (entropy.nonZeroBytes (size - chunk.length - 3) ++ 0 :: chunk)

/-- The data behind the first zero, which at least eight nonzero bytes precede. -/
def unpad? : Bytes → Option Bytes
  | first :: second :: rest =>
    let filler := rest.takeWhile (· ≠ 0)
    if first = 0 ∧ second = 2 ∧ 8 ≤ filler.length ∧ filler.length < rest.length then
      some (rest.drop (filler.length + 1))
    else none
  | _ => none

end Pkcs1

namespace Oaep

def hashLength : Nat := 32

/-- MGF1 with SHA-256: `count` hashes of the seed with a running counter. -/
def maskBlocks (seed : Bytes) : (count : Nat) → (counter : Nat) → Bytes
  | 0, _ => []
  | count + 1, counter =>
    Sha256.hash (seed ++ Bytes.ofNat 4 counter) ++ maskBlocks seed count (counter + 1)

/-- `bs` combined with the mask that `seed` generates. -/
def mask (seed bs : Bytes) : Bytes :=
  Bytes.xor bs (maskBlocks seed ((bs.length + 31) / 32) 0)

/-- The hash of the empty label. -/
def labelHash : Bytes :=
  Sha256.hash []

def pad (size : Nat) (entropy : Entropy) (chunk : Bytes) : Bytes :=
  let seed := entropy.bytes hashLength
  let data := labelHash ++ List.replicate (size - chunk.length - 66) 0 ++ 1 :: chunk
  let maskedData := mask seed data
  0 :: (mask maskedData seed ++ maskedData)

/-- The data behind the first one byte of the unmasked block; only zeros stand between it and the
label's hash. -/
def unpad? : Bytes → Option Bytes
  | [] => none
  | first :: rest =>
    if rest.length < 2 * hashLength + 1 then none
    else
      let maskedData := rest.drop hashLength
      let seed := mask maskedData (rest.take hashLength)
      let data := mask seed maskedData
      match (data.drop hashLength).dropWhile (· = 0) with
      | one :: chunk =>
        if first = 0 ∧ data.take hashLength = labelHash ∧ one = 1 then some chunk else none
      | [] => none

end Oaep

namespace Padding

def pad : Padding → (size : Nat) → Entropy → (chunk : Bytes) → Bytes
  | pkcs1 => Pkcs1.pad
  | oaepSha256 => Oaep.pad

def unpad? : Padding → Bytes → Option Bytes
  | pkcs1 => Pkcs1.unpad?
  | oaepSha256 => Oaep.unpad?

end Padding

end CipherVault.Rsa
