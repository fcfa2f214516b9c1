import CipherVault.Aes.Word
/-!
# AES blocks

A block is four columns of four bytes.  This module holds the layers of a round on a block, each
beside its inverse, and the reading of bytes as whole blocks.
-/

namespace CipherVault.Aes

@[ext]
structure Block where
  c0 : Word
  c1 : Word
  c2 : Word
  c3 : Word
deriving DecidableEq, Repr, Inhabited

namespace Block

def size : Nat := 16

def xor (s t : Block) : Block :=
  ⟨s.c0.xor t.c0, s.c1.xor t.c1, s.c2.xor t.c2, s.c3.xor t.c3⟩

def map (f : Byte → Byte) (s : Block) : Block :=
  ⟨s.c0.map f, s.c1.map f, s.c2.map f, s.c3.map f⟩

/-- Row `i` moves `i` columns to the left. -/
def shiftRows (s : Block) : Block :=
  ⟨⟨s.c0.b0, s.c1.b1, s.c2.b2, s.c3.b3⟩, ⟨s.c1.b0, s.c2.b1, s.c3.b2, s.c0.b3⟩,
    ⟨s.c2.b0, s.c3.b1, s.c0.b2, s.c1.b3⟩, ⟨s.c3.b0, s.c0.b1, s.c1.b2, s.c2.b3⟩⟩

/-- Row `i` moves `i` columns to the right. -/
def unshiftRows (s : Block) : Block :=
  ⟨⟨s.c0.b0, s.c3.b1, s.c2.b2, s.c1.b3⟩, ⟨s.c1.b0, s.c0.b1, s.c3.b2, s.c2.b3⟩,
    ⟨s.c2.b0, s.c1.b1, s.c0.b2, s.c3.b3⟩, ⟨s.c3.b0, s.c2.b1, s.c1.b2, s.c0.b3⟩⟩

def mix (s : Block) : Block :=
  ⟨s.c0.mix, s.c1.mix, s.c2.mix, s.c3.mix⟩

def unmix (s : Block) : Block :=
  ⟨s.c0.unmix, s.c1.unmix, s.c2.unmix, s.c3.unmix⟩

def toBytes (s : Block) : Bytes :=
  [s.c0.b0, s.c0.b1, s.c0.b2, s.c0.b3, s.c1.b0, s.c1.b1, s.c1.b2, s.c1.b3,
    s.c2.b0, s.c2.b1, s.c2.b2, s.c2.b3, s.c3.b0, s.c3.b1, s.c3.b2, s.c3.b3]

@[simp]
theorem length_toBytes (s : Block) : s.toBytes.length = 16 := rfl

end Block

/-- The bytes as whole blocks; none when their number is not a multiple of sixteen. -/
def blocks? : Bytes → Option (List Block)
  | [] => some []
  | a0 :: a1 :: a2 :: a3 :: b0 :: b1 :: b2 :: b3 :: c0 :: c1 :: c2 :: c3 :: d0 :: d1 :: d2 :: d3 ::
      rest =>
    (blocks? rest).map
      (⟨⟨a0, a1, a2, a3⟩, ⟨b0, b1, b2, b3⟩, ⟨c0, c1, c2, c3⟩, ⟨d0, d1, d2, d3⟩⟩ :: ·)
  | _ => none

/-- The bytes as exactly one block. -/
def block? (bs : Bytes) : Option Block :=
  match blocks? bs with
  | some [block] => some block
  | _ => none

def blockBytes (blocks : List Block) : Bytes :=
  blocks.flatMap Block.toBytes

end CipherVault.Aes
