import CipherVault.Text
/-!
# JSON values

A value as it was written: a string keeps its escapes and a numeral its digits, because a reader
that skips a field checks its form only, while one that uses the field also asks what it spells.
This module holds the tree, what strings and numerals spell, and the printer.
-/

namespace CipherVault.Json

/-- A numeral as written; digits are ASCII bytes. -/
structure Numeral where
  negative : Bool
  whole : Bytes
  fraction : Option Bytes
  /-- Whether the exponent is negative, and its digits. -/
  exponent : Option (Bool × Bytes)
deriving DecidableEq, Repr

inductive Value where
  | null
  | bool (value : Bool)
  | number (numeral : Numeral)
  /-- The bytes between the quotes, escapes unresolved. -/
  | string (raw : Bytes)
  | array (elements : List Value)
  | object (members : List (Bytes × Value))
deriving Repr

namespace Numeral

/-- The value of a run of ASCII digits. -/
def digitsValue (digits : Bytes) : Nat :=
  digits.foldl (fun value b => value * 10 + (b.toNat - 48)) 0

/-- The value of a numeral that is written as a natural number. -/
def natural? (n : Numeral) : Option Nat :=
  if n.negative ∨ n.fraction.isSome ∨ n.exponent.isSome then none
  else some (digitsValue n.whole)

/-- The ASCII digits of `n` in base ten, after those in `tail`. -/
def decimalDigits (n : Nat) : Bytes :=
  (Nat.toDigits 10 n).map fun c => UInt8.ofNat c.toNat

def ofNat (n : Nat) : Numeral :=
  ⟨false, decimalDigits n, none, none⟩

/-- `n` rounded to 53 significant bits, a tie to the even neighbour. -/
def roundTo53 (n : Nat) : Nat :=
  if n.log2 < 53 then n
  else
    let unit := Nat.pow 2 (n.log2 - 52)
    let quotient := n / unit
    let rest := n % unit
    if unit < 2 * rest ∨ (unit = 2 * rest ∧ quotient % 2 = 1) then (quotient + 1) * unit
    else quotient * unit

/-- The leading digits that fit in 64 bits, and how many digits were left over. -/
def significand (digits : Bytes) : Nat × Nat :=
  digits.foldl
    (fun (value, dropped) b =>
      let next := value * 10 + (b.toNat - 48)
      if dropped = 0 ∧ next < UInt64.size then (next, 0) else (value, dropped + 1))
    (0, 0)

/-- The least number that rounds past every finite double. -/
def infinityBound : Nat := Nat.pow 2 1024 - Nat.pow 2 970

/-- Whether the numeral stays below the largest finite double when its leading digits and its power
of ten are rounded to doubles before they are multiplied. -/
def isFinite (n : Numeral) : Bool :=
  let fraction := n.fraction.getD []
  let (value, dropped) := significand (n.whole ++ fraction)
  let shift : Int := (dropped : Int) - fraction.length
  let exponent : Int := match n.exponent with
    | none => 0
    | some (negative, digits) =>
      let size : Int := digitsValue digits
      if negative then -size else size
  let power := shift + exponent
  value = 0 ∨ power < 0 ∨
    (power ≤ 308 ∧ roundTo53 value * roundTo53 (Nat.pow 10 power.toNat) < infinityBound)

def render (n : Numeral) : Bytes :=
  (if n.negative then [45] else []) ++ n.whole ++
    (match n.fraction with
      | none => []
      | some digits => 46 :: digits) ++
    (match n.exponent with
      | none => []
      | some (negative, digits) => 101 :: (if negative then 45 :: digits else digits))

end Numeral

/-- The value of a hexadecimal digit of either case. -/
def hexValue? (b : Byte) : Option Nat :=
  let n := b.toNat
  if 48 ≤ n ∧ n ≤ 57 then some (n - 48)
  else if 65 ≤ n ∧ n ≤ 70 then some (n - 55)
  else if 97 ≤ n ∧ n ≤ 102 then some (n - 87)
  else none

/-- The number that the four hexadecimal digits at the front spell, and the rest. -/
def hexQuad? : Bytes → Option (Nat × Bytes)
  | a :: b :: c :: d :: rest => do
    let a ← hexValue? a
    let b ← hexValue? b
    let c ← hexValue? c
    let d ← hexValue? d
    some (((a * 16 + b) * 16 + c) * 16 + d, rest)
  | _ => none

/-- What a one-letter escape stands for. -/
def shortEscape? (b : Byte) : Option Byte :=
  if b = 34 ∨ b = 92 ∨ b = 47 then some b
  else if b = 98 then some 8
  else if b = 102 then some 12
  else if b = 110 then some 10
  else if b = 114 then some 13
  else if b = 116 then some 9
  else none

/-- The bytes that a raw string spells; half of a surrogate pair alone spells nothing.  The first
argument bounds the number of escapes and plain bytes. -/
def unescapeFuel : Nat → Bytes → Option Bytes
  | _, [] => some []
  | 0, _ :: _ => none
  | fuel + 1, b :: rest =>
    if b ≠ 92 then (unescapeFuel fuel rest).map (b :: ·)
    else match rest with
      | [] => none
      | kind :: rest =>
        if kind ≠ 117 then do
          let byte ← shortEscape? kind
          (unescapeFuel fuel rest).map (byte :: ·)
        else do
          let (high, rest) ← hexQuad? rest
          if 0xDC00 ≤ high ∧ high < 0xE000 then none
          else if 0xD800 ≤ high ∧ high < 0xDC00 then
            match rest with
            | 92 :: 117 :: rest => do
              let (low, rest) ← hexQuad? rest
              if 0xDC00 ≤ low ∧ low < 0xE000 then
                let c := Char.ofNat (0x10000 + (high - 0xD800) * 0x400 + (low - 0xDC00))
                (unescapeFuel fuel rest).map (Utf8.encodeChar c ++ ·)
              else none
            | _ => none
          else (unescapeFuel fuel rest).map (Utf8.encodeChar (Char.ofNat high) ++ ·)

def unescape (raw : Bytes) : Option Bytes :=
  unescapeFuel raw.length raw

/-- The text that a raw string spells. -/
def text? (raw : Bytes) : Option String :=
  (unescape raw).bind fun bs => (Utf8.decode bs).toOption

/-- The raw form of a character: quote, backslash and control characters are escaped, all else is
written as it is. -/
def escapeChar (c : Char) : Bytes :=
  if c = '"' then [92, 34]
  else if c = '\\' then [92, 92]
  else if c.toNat = 8 then [92, 98]
  else if c.toNat = 9 then [92, 116]
  else if c.toNat = 10 then [92, 110]
  else if c.toNat = 12 then [92, 102]
  else if c.toNat = 13 then [92, 114]
  else if c.toNat < 32 then
    [92, 117, 48, 48, UInt8.ofNat (Bytes.hexDigit (c.toNat / 16)).toNat,
      UInt8.ofNat (Bytes.hexDigit (c.toNat % 16)).toNat]
  else Utf8.encodeChar c

def escape (s : String) : Bytes :=
  s.toList.flatMap escapeChar

namespace Value

def ofString (s : String) : Value :=
  .string (escape s)

def ofNat (n : Nat) : Value :=
  .number (Numeral.ofNat n)

/-- An object with the given members in their order. -/
def ofMembers (members : List (String × Value)) : Value :=
  .object (members.map fun (name, value) => (escape name, value))

mutual

/-- The compact form of a value, without white space. -/
def render : Value → Bytes
  | .null => [110, 117, 108, 108]
  | .bool true => [116, 114, 117, 101]
  | .bool false => [102, 97, 108, 115, 101]
  | .number numeral => numeral.render
  | .string raw => 34 :: raw ++ [34]
  | .array [] => [91, 93]
  | .array (first :: rest) => 91 :: render first ++ renderElements rest
  | .object [] => [123, 125]
  | .object ((name, first) :: rest) =>
    123 :: 34 :: name ++ 34 :: 58 :: render first ++ renderMembers rest

/-- The elements after the first one, each behind a comma, and the closing bracket. -/
def renderElements : List Value → Bytes
  | [] => [93]
  | value :: rest => 44 :: render value ++ renderElements rest

/-- The members after the first one, each behind a comma, and the closing brace. -/
def renderMembers : List (Bytes × Value) → Bytes
  | [] => [125]
  | (name, value) :: rest =>
    44 :: 34 :: name ++ 34 :: 58 :: render value ++ renderMembers rest

end

end Value

end CipherVault.Json
