import CipherVault.Bytes
/-!
# DER elements

Tag, length and content in the distinguished encoding: definite lengths in as few bytes as possible,
and natural numbers in as few bytes as possible behind a zero where the first bit would otherwise
read as a sign.
-/

namespace CipherVault.Der

/-- The longest content that a length may announce. -/
def maxLength : Nat := 0x0fffffff

/-- Tags of the universal class in use, and every low tag number of the other classes. -/
def isTag (tag : Byte) : Bool :=
  [0x01, 0x02, 0x03, 0x04, 0x05, 0x06, 0x09, 0x0A, 0x0C, 0x12, 0x13, 0x14, 0x15, 0x16, 0x17, 0x18,
    0x1A, 0x1E, 0x30, 0x31].contains tag || (0x40 ≤ tag && tag &&& 0x1F != 0x1F)

/-- The bytes of a length. -/
def lengthBytes (length : Nat) : Bytes :=
  if length < 128 then [UInt8.ofNat length]
  else
    let digits := Bytes.digits length
    UInt8.ofNat (128 + digits.length) :: digits

/-- The length at the front and the rest. -/
def length? : Bytes → Option (Nat × Bytes)
  | [] => none
  | first :: rest =>
    if first < 128 then some (first.toNat, rest)
    else
      let count := first.toNat - 128
      let digits := rest.take count
      let length := Bytes.toNat digits
      if digits.length = count ∧ length ≤ maxLength ∧ lengthBytes length = first :: digits then
        some (length, rest.drop count)
      else none

/-- The tag and content of the element at the front, and the rest. -/
def element? : Bytes → Option (Byte × Bytes × Bytes)
  | [] => none
  | tag :: rest =>
    if isTag tag then do
      let (length, rest) ← length? rest
      if length ≤ rest.length then some (tag, rest.take length, rest.drop length) else none
    else none

/-- The content of the element at the front, which has to carry `tag`, and the rest. -/
def content? (tag : Byte) (bs : Bytes) : Option (Bytes × Bytes) := do
  let (found, content, rest) ← element? bs
  if found = tag then some (content, rest) else none

/-- The content of the one element that `bs` consists of. -/
def sole? (tag : Byte) (bs : Bytes) : Option Bytes := do
  let (content, rest) ← content? tag bs
  if rest.isEmpty then some content else none

/-- An element; none when the content is too long. -/
def element (tag : Byte) (content : Bytes) : Option Bytes :=
  if content.length ≤ maxLength then some (tag :: (lengthBytes content.length ++ content)) else none

def integerTag : Byte := 0x02

def bitStringTag : Byte := 0x03

def octetStringTag : Byte := 0x04

def sequenceTag : Byte := 0x30

/-- The content of a natural number. -/
def naturalContent (n : Nat) : Bytes :=
  match Bytes.digits n with
  | [] => [0]
  | first :: rest => if first < 128 then first :: rest else 0 :: first :: rest

/-- The number that a content spells, if it is how that number is written. -/
def ofNaturalContent? (content : Bytes) : Option Nat :=
  let n := Bytes.toNat content
  if naturalContent n = content then some n else none

def natural (n : Nat) : Option Bytes :=
  element integerTag (naturalContent n)

/-- The natural number at the front and the rest. -/
def natural? (bs : Bytes) : Option (Nat × Bytes) := do
  let (content, rest) ← content? integerTag bs
  let n ← ofNaturalContent? content
  some (n, rest)

/-- `count` natural numbers that make up `bs`. -/
def naturals? : (count : Nat) → Bytes → Option (List Nat)
  | 0, bs => if bs.isEmpty then some [] else none
  | count + 1, bs => do
    let (n, rest) ← natural? bs
    let more ← naturals? count rest
    some (n :: more)

/-- Natural numbers one behind the other. -/
def naturals : List Nat → Option Bytes
  | [] => some []
  | n :: rest => do
    let first ← natural n
    let more ← naturals rest
    some (first ++ more)

end CipherVault.Der
