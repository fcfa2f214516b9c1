/-!
# Byte strings

Every key, initialization vector, plaintext and image in this library is a list of bytes.  This
module holds the big-endian reading of such a list as a number, its inverse, and the hexadecimal
form that log lines use.
-/

namespace CipherVault

abbrev Byte := UInt8

abbrev Bytes := List Byte

namespace Bytes

/-- The number whose base-256 digits are `bs`, most significant first. -/
def toNat (bs : Bytes) : Nat :=
  bs.foldl (fun value b => value * 256 + b.toNat) 0

/-- The `length` low-order base-256 digits of `n`, most significant first. -/
def ofNat : (length : Nat) → (n : Nat) → Bytes
  | 0, _ => []
  | length + 1, n => UInt8.ofNat (n / Nat.pow 256 length) :: ofNat length n

/-- How many base-256 digits `n` has; zero has none. -/
def byteLength (n : Nat) : Nat :=
  if n = 0 then 0 else n.log2 / 8 + 1

/-- The digits of `n` without a leading zero digit. -/
def digits (n : Nat) : Bytes :=
  ofNat (byteLength n) n

/-- Bytewise exclusive or, as long as the shorter operand. -/
def xor (left right : Bytes) : Bytes :=
  List.zipWith (· ^^^ ·) left right

/-- `bs` cut into pieces of `size` bytes, the last one possibly shorter.  A size of zero gives one
piece per byte, so that the cut always ends. -/
def pieces (size : Nat) (bs : Bytes) : List Bytes :=
  go bs.length bs
where
  go : Nat → Bytes → List Bytes
    | 0, _ => []
    | _ + 1, [] => []
    | fuel + 1, b :: rest =>
      (b :: rest.take (size - 1)) :: go fuel (rest.drop (size - 1))

def hexDigit (n : Nat) : Char :=
  if n < 10 then Char.ofNat (n + 48) else Char.ofNat (n + 87)

/-- Two lower-case hexadecimal digits a byte. -/
def hexDigits (bs : Bytes) : List Char :=
  bs.flatMap fun b => [hexDigit (b.toNat / 16), hexDigit (b.toNat % 16)]

def toHex (bs : Bytes) : String :=
  String.ofList (hexDigits bs)

@[simp]
theorem length_ofNat (length n : Nat) : (ofNat length n).length = length := by
  induction length with
  | zero => rfl
  | succ length ih => simp [ofNat, ih]

@[simp]
theorem length_xor (left right : Bytes) :
    (xor left right).length = min left.length right.length := by
  simp [xor]

end Bytes

end CipherVault
