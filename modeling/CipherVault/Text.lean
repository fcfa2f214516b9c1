import CipherVault.Bytes
/-!
# Texts

The bytes of a text, and the white space and letter case at the edge of a name.
-/

namespace CipherVault

/-! ## UTF-8

The bytes of a text and the reading of bytes as text.  A reading that fails says where the first bad
sequence starts and how many of its bytes form the longest valid beginning, or that the input ended
inside a sequence that was valid so far. -/

namespace Utf8

/-- The one to four bytes of a character. -/
def encodeChar (c : Char) : Bytes :=
  let n := c.toNat
  if n < 0x80 then [UInt8.ofNat n]
  else if n < 0x800 then [UInt8.ofNat (0xC0 + n / 0x40), UInt8.ofNat (0x80 + n % 0x40)]
  else if n < 0x10000 then
    [UInt8.ofNat (0xE0 + n / 0x1000), UInt8.ofNat (0x80 + n / 0x40 % 0x40),
      UInt8.ofNat (0x80 + n % 0x40)]
  else
    [UInt8.ofNat (0xF0 + n / 0x40000), UInt8.ofNat (0x80 + n / 0x1000 % 0x40),
      UInt8.ofNat (0x80 + n / 0x40 % 0x40), UInt8.ofNat (0x80 + n % 0x40)]

def encodeChars (cs : List Char) : Bytes :=
  cs.flatMap encodeChar

def encode (s : String) : Bytes :=
  encodeChars s.toList

/-- Why bytes are not UTF-8. -/
inductive DecodeError where
  /-- The sequence at `start` is wrong after `length` good bytes (at least one). -/
  | invalid (start length : Nat)
  /-- The input ends within the sequence at `start`. -/
  | incomplete (start : Nat)
deriving DecidableEq, Repr

namespace DecodeError

def message : DecodeError → String
  | invalid start length =>
    "invalid utf-8 sequence of " ++ toString length ++ " bytes from index " ++ toString start
  | incomplete start => "incomplete utf-8 byte sequence from index " ++ toString start

end DecodeError

def isContinuation (b : Nat) : Bool :=
  0x80 ≤ b && b < 0xC0

/-- Whether `b` may follow the first byte of a sequence.  This is where overlong forms, surrogates
and values above U+10FFFF are excluded. -/
def isSecond (first b : Nat) : Bool :=
  if first == 0xE0 then 0xA0 ≤ b && b < 0xC0
  else if first == 0xED then 0x80 ≤ b && b < 0xA0
  else if first == 0xF0 then 0x90 ≤ b && b < 0xC0
  else if first == 0xF4 then 0x80 ≤ b && b < 0x90
  else isContinuation b

/-- The characters that `bs` spells; `start` is the number of bytes read before `bs`. -/
def decodeCharsFrom (start : Nat) : Bytes → Except DecodeError (List Char)
  | [] => .ok []
  | b0 :: r0 =>
    let x0 := b0.toNat
    if x0 < 0x80 then (decodeCharsFrom (start + 1) r0).map (Char.ofNat x0 :: ·)
    else if x0 < 0xC2 || 0xF5 ≤ x0 then .error (.invalid start 1)
    else match r0 with
      | [] => .error (.incomplete start)
      | b1 :: r1 =>
        let x1 := b1.toNat
        if !isSecond x0 x1 then .error (.invalid start 1)
        else if x0 < 0xE0 then
          (decodeCharsFrom (start + 2) r1).map
            (Char.ofNat ((x0 - 0xC0) * 0x40 + (x1 - 0x80)) :: ·)
        else match r1 with
          | [] => .error (.incomplete start)
          | b2 :: r2 =>
            let x2 := b2.toNat
            if !isContinuation x2 then .error (.invalid start 2)
            else if x0 < 0xF0 then
              (decodeCharsFrom (start + 3) r2).map
                (Char.ofNat ((x0 - 0xE0) * 0x1000 + (x1 - 0x80) * 0x40 + (x2 - 0x80)) :: ·)
            else match r2 with
              | [] => .error (.incomplete start)
              | b3 :: r3 =>
                let x3 := b3.toNat
                if !isContinuation x3 then .error (.invalid start 3)
                else
                  (decodeCharsFrom (start + 4) r3).map
                    (Char.ofNat ((x0 - 0xF0) * 0x40000 + (x1 - 0x80) * 0x1000 +
                      (x2 - 0x80) * 0x40 + (x3 - 0x80)) :: ·)

def decodeChars (bs : Bytes) : Except DecodeError (List Char) :=
  decodeCharsFrom 0 bs

/-- The text that `bs` spells. -/
def decode (bs : Bytes) : Except DecodeError String :=
  (decodeChars bs).map String.ofList

end Utf8

/-! ## White space and letter case

Names and encoded values may be surrounded by white space.  White space is the Unicode property
`White_Space`; letter case is folded for ASCII letters only, so no look-alike from another script
ever becomes part of a name. -/

namespace Text

/-- The code points with the Unicode property `White_Space`. -/
def isBlank (c : Char) : Bool :=
  let n := c.toNat
  (0x09 ≤ n && n ≤ 0x0D) || n == 0x20 || n == 0x85 || n == 0xA0 || n == 0x1680 ||
    (0x2000 ≤ n && n ≤ 0x200A) || n == 0x2028 || n == 0x2029 || n == 0x202F || n == 0x205F ||
    n == 0x3000

def trimChars (cs : List Char) : List Char :=
  ((cs.dropWhile isBlank).reverse.dropWhile isBlank).reverse

/-- `s` without white space at its two ends. -/
def trim (s : String) : String :=
  String.ofList (trimChars s.toList)

/-- `s` with the letters a to z in upper case and every other character unchanged. -/
def upperAscii (s : String) : String :=
  String.ofList (s.toList.map Char.toUpper)

end Text

end CipherVault
