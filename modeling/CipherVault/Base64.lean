import CipherVault.Text
/-!
# Base64

The standard alphabet with mandatory padding and no left-over bits, so every byte string has one
encoded form.  A text that is not such a form is refused with the first defect: symbols are checked
from left to right, the length and padding of the last quantum after its symbols, its left-over bits
last.
-/

namespace CipherVault.Base64

/-- The symbol for a six-bit value: A to Z, a to z, 0 to 9, plus and slash. -/
def symbol (value : Nat) : Char :=
  if value < 26 then Char.ofNat (value + 65)
  else if value < 52 then Char.ofNat (value + 71)
  else if value < 62 then Char.ofNat (value - 4)
  else if value = 62 then '+'
  else '/'

/-- The six-bit value of an ASCII symbol. -/
def value? (b : Byte) : Option Nat :=
  let n := b.toNat
  if 65 ≤ n ∧ n ≤ 90 then some (n - 65)
  else if 97 ≤ n ∧ n ≤ 122 then some (n - 71)
  else if 48 ≤ n ∧ n ≤ 57 then some (n + 4)
  else if n = 43 then some 62
  else if n = 47 then some 63
  else none

def encodeChars : Bytes → List Char
  | [] => []
  | [a] => [symbol (a.toNat / 4), symbol (a.toNat % 4 * 16), '=', '=']
  | [a, b] =>
    [symbol (a.toNat / 4), symbol (a.toNat % 4 * 16 + b.toNat / 16), symbol (b.toNat % 16 * 4), '=']
  | a :: b :: c :: rest =>
    symbol (a.toNat / 4) :: symbol (a.toNat % 4 * 16 + b.toNat / 16) ::
      symbol (b.toNat % 16 * 4 + c.toNat / 64) :: symbol (c.toNat % 64) :: encodeChars rest

def encode (bs : Bytes) : String :=
  String.ofList (encodeChars bs)

/-- Why a text is not base64.  Offsets count bytes. -/
inductive DecodeError where
  | invalidSymbol (symbol : Byte) (offset : Nat)
  | invalidLength (length : Nat)
  | invalidPadding
  | invalidLastSymbol (symbol : Byte) (offset : Nat)
deriving DecidableEq, Repr

namespace DecodeError

def message : DecodeError → String
  | invalidSymbol symbol offset =>
    "Invalid symbol " ++ toString symbol.toNat ++ ", offset " ++ toString offset ++ "."
  | invalidLength length => "Invalid input length: " ++ toString length
  | invalidPadding => "Invalid padding"
  | invalidLastSymbol symbol offset =>
    "Invalid last symbol " ++ toString symbol.toNat ++ ", offset " ++ toString offset ++ "."

end DecodeError

def padByte : Byte := 61

/-- The symbols of the last quantum with their values, and how many pad bytes follow them.
`index` bytes of the quantum, which starts at `offset`, are already read. -/
def lastSymbols (offset : Nat) : (index : Nat) → Bytes →
    Except DecodeError (List (Byte × Nat) × Nat)
  | _, [] => .ok ([], 0)
  | index, b :: rest =>
    if b = padByte then
      if index < 2 then .error (.invalidSymbol b (offset + index))
      else if rest.all (· == padByte) then .ok ([], rest.length + 1)
      else .error (.invalidSymbol padByte (offset + index))
    else match value? b with
      | none => .error (.invalidSymbol b (offset + index))
      | some value =>
        (lastSymbols offset (index + 1) rest).map fun (symbols, pads) =>
          ((b, value) :: symbols, pads)

/-- The bytes of the last quantum: one to four bytes of text that start at `offset`, or none at
all for an empty text. -/
def decodeLast (offset : Nat) (quantum : Bytes) : Except DecodeError Bytes := do
  let (symbols, pads) ← lastSymbols offset 0 quantum
  match symbols with
  | [] => .ok []
  | [_] => .error (.invalidLength (offset + 1))
  | [(_, v0), (b1, v1)] =>
    if pads ≠ 2 then .error .invalidPadding
    else if v1 % 16 ≠ 0 then .error (.invalidLastSymbol b1 (offset + 1))
    else .ok [UInt8.ofNat (v0 * 4 + v1 / 16)]
  | [(_, v0), (_, v1), (b2, v2)] =>
    if pads ≠ 1 then .error .invalidPadding
    else if v2 % 4 ≠ 0 then .error (.invalidLastSymbol b2 (offset + 2))
    else .ok [UInt8.ofNat (v0 * 4 + v1 / 16), UInt8.ofNat (v1 % 16 * 16 + v2 / 4)]
  | (_, v0) :: (_, v1) :: (_, v2) :: (_, v3) :: _ =>
    .ok [UInt8.ofNat (v0 * 4 + v1 / 16), UInt8.ofNat (v1 % 16 * 16 + v2 / 4),
      UInt8.ofNat (v2 % 4 * 64 + v3)]

/-- The value of the symbol at `offset`. -/
def symbolAt (offset : Nat) (b : Byte) : Except DecodeError Nat :=
  match value? b with
  | none => .error (.invalidSymbol b offset)
  | some value => .ok value

/-- The bytes of a text of whole quanta and a last one; the text starts at `offset`. -/
def decodeFrom (offset : Nat) : Bytes → Except DecodeError Bytes
  | b0 :: b1 :: b2 :: b3 :: rest =>
    if rest.isEmpty then decodeLast offset [b0, b1, b2, b3]
    else do
      let v0 ← symbolAt offset b0
      let v1 ← symbolAt (offset + 1) b1
      let v2 ← symbolAt (offset + 2) b2
      let v3 ← symbolAt (offset + 3) b3
      let tail ← decodeFrom (offset + 4) rest
      .ok (UInt8.ofNat (v0 * 4 + v1 / 16) :: UInt8.ofNat (v1 % 16 * 16 + v2 / 4) ::
        UInt8.ofNat (v2 % 4 * 64 + v3) :: tail)
  | quantum => decodeLast offset quantum

/-- A text one byte longer than whole quanta is refused for that byte before anything else when the
byte is neither a symbol nor padding. -/
def strayLast? (text : Bytes) : Option DecodeError :=
  if text.length % 4 = 1 then
    match text.getLast? with
    | some b =>
      if b ≠ padByte ∧ (value? b).isNone then some (.invalidSymbol b (text.length - 1)) else none
    | none => none
  else none

/-- The bytes that the ASCII text `text` encodes. -/
def decodeBytes (text : Bytes) : Except DecodeError Bytes :=
  match strayLast? text with
  | some e => .error e
  | none => decodeFrom 0 text

def decode (text : String) : Except DecodeError Bytes :=
  decodeBytes (Utf8.encode text)

end CipherVault.Base64
