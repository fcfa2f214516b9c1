import CipherVault.Hash.Sha256
/-!
# HMAC and PBKDF2 over SHA-256

A `Hmac.Key` is the pair of states that the inner and outer hash reach after the padded key.  PBKDF2
iterates the keyed hash on digests and gives one block of 32 bytes, the length of a sealing key.
-/

namespace CipherVault

namespace Hmac

structure Key where
  inner : Sha256.State
  outer : Sha256.State
deriving DecidableEq, Repr

/-- A key of at most 64 bytes as it is and a longer one hashed, filled up with zeros to 64 bytes. -/
def keyBlock (key : Bytes) : Bytes :=
  let short := if key.length ≤ 64 then key else Sha256.hash key
  short ++ List.replicate (64 - short.length) 0

def Key.ofBytes (key : Bytes) : Key :=
  let block := keyBlock key
  ⟨Sha256.absorb Sha256.initial (block.map (· ^^^ 0x36)),
    Sha256.absorb Sha256.initial (block.map (· ^^^ 0x5c))⟩

/-- The code of a message. -/
def Key.mac (key : Key) (message : Bytes) : Sha256.State :=
  Sha256.compress key.outer (Sha256.digestBlock (Sha256.finish key.inner 64 message))

/-- The code of a digest. -/
def Key.macDigest (key : Key) (digest : Sha256.State) : Sha256.State :=
  Sha256.compress key.outer
    (Sha256.digestBlock (Sha256.compress key.inner (Sha256.digestBlock digest)))

end Hmac

namespace Pbkdf2

/-- Exclusive or of `sum` with the next `count` codes after `last`. -/
def iterate (key : Hmac.Key) : (count : Nat) → (last sum : Sha256.State) → Sha256.State
  | 0, _, sum => sum
  | count + 1, last, sum =>
    let next := key.macDigest last
    iterate key count next (sum.xor next)

/-- The 32-byte key that `iterations` rounds derive from a password; at least one round is made. -/
def derive (password salt : Bytes) (iterations : Nat) : Bytes :=
  let key := Hmac.Key.ofBytes password
  let first := key.mac (salt ++ [0, 0, 0, 1])
  (iterate key (iterations - 1) first first).toBytes

@[simp]
theorem length_derive (password salt : Bytes) (iterations : Nat) :
    (derive password salt iterations).length = 32 := rfl

end Pbkdf2

end CipherVault
