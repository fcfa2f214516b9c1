import CipherVault.Aes.Block
/-!
# The AES block cipher

A key schedule is the list of round keys; encryption and decryption are defined for every schedule,
so that one undoes the other whatever key the schedule came from.
-/

namespace CipherVault.Aes

/-- The key added before the first round, those of the full rounds in order, and the last one. -/
structure Schedule where
  first : Block
  middle : List Block
  last : Block
deriving DecidableEq, Repr

namespace Schedule

def round (s : Block) (key : Block) : Block :=
  ((s.map substitute).shiftRows.mix).xor key

def unround (key : Block) (s : Block) : Block :=
  ((s.xor key).unmix.unshiftRows).map unsubstitute

def encrypt (schedule : Schedule) (block : Block) : Block :=
  (((schedule.middle.foldl round (block.xor schedule.first)).map substitute).shiftRows).xor
    schedule.last

def decrypt (schedule : Schedule) (block : Block) : Block :=
  (schedule.middle.foldr unround
    (((block.xor schedule.last).unshiftRows).map unsubstitute)).xor schedule.first

/-- The schedule's next word, given the words so far with the newest in front, of a key of `size`
words; `constant` is the current round constant. -/
def nextWord (size : Nat) (constant : Byte) (newestFirst : List Word) : Word :=
  let index := newestFirst.length
  let previous := newestFirst.headD default
  let turned :=
    if index % size = 0 then (previous.rotate.map substitute).xor ⟨constant, 0, 0, 0⟩
    else if 6 < size ∧ index % size = 4 then previous.map substitute
    else previous
  (newestFirst.getD (size - 1) default).xor turned

/-- `count` more words in front of those so far.  The round constant doubles after each use. -/
def expand (size : Nat) : (count : Nat) → (constant : Byte) → List Word → List Word
  | 0, _, words => words
  | count + 1, constant, words =>
    expand size count (if words.length % size = 0 then double constant else constant)
      (nextWord size constant words :: words)

def words : Bytes → List Word
  | a :: b :: c :: d :: rest => ⟨a, b, c, d⟩ :: words rest
  | _ => []

def roundKeys : List Word → List Block
  | a :: b :: c :: d :: rest => ⟨a, b, c, d⟩ :: roundKeys rest
  | _ => []

/-- The schedule of a key of `size` words: `size + 6` rounds, hence four words more for each. -/
def ofWords (size : Nat) (key : List Word) : Schedule :=
  let keys := roundKeys (expand size (4 * (size + 7) - size) 1 key.reverse).reverse
  ⟨keys.headD default, keys.tail.dropLast, keys.getLastD default⟩

/-- The schedule of a key of 16, 24 or 32 bytes; other keys have none. -/
def ofKey? (key : Bytes) : Option Schedule :=
  if key.length = 16 ∨ key.length = 24 ∨ key.length = 32 then
    some (ofWords (key.length / 4) (words key))
  else none

end Schedule

end CipherVault.Aes
