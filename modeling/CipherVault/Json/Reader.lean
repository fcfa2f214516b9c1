import CipherVault.Json.Value
/-!
# Reading JSON

`read?` accepts exactly one JSON value with white space around it.  Strings and numerals are checked
for their form only; nothing limits how deep containers nest.
-/

namespace CipherVault.Json

/-- Space, tab, line feed and carriage return. -/
def isSpace (b : Byte) : Bool :=
  b == 32 || b == 9 || b == 10 || b == 13

def skipSpace (bs : Bytes) : Bytes :=
  bs.dropWhile isSpace

def isDigit (b : Byte) : Bool :=
  48 ≤ b && b ≤ 57

/-- The raw string up to the closing quote, and what follows the quote. -/
def rawString : Bytes → Option (Bytes × Bytes)
  | [] => none
  | b :: rest =>
    if b = 34 then some ([], rest)
    else if b < 32 then none
    else if b ≠ 92 then (rawString rest).map fun (raw, rest) => (b :: raw, rest)
    else match rest with
      | [] => none
      | kind :: rest =>
        if kind ≠ 117 then
          if (shortEscape? kind).isSome then
            (rawString rest).map fun (raw, rest) => (b :: kind :: raw, rest)
          else none
        else match rest with
          | h0 :: h1 :: h2 :: h3 :: rest =>
            if [h0, h1, h2, h3].all fun h => (hexValue? h).isSome then
              (rawString rest).map fun (raw, rest) =>
                (b :: kind :: h0 :: h1 :: h2 :: h3 :: raw, rest)
            else none
          | _ => none

/-- A nonempty run of digits and the rest. -/
def digits1? (bs : Bytes) : Option (Bytes × Bytes) :=
  match bs.takeWhile isDigit with
  | [] => none
  | digits => some (digits, bs.dropWhile isDigit)

/-- The whole part: a single zero, or digits that start with no zero. -/
def wholePart? (bs : Bytes) : Option (Bytes × Bytes) :=
  match digits1? bs with
  | some (first :: second :: more, rest) =>
    if first = 48 then none else some (first :: second :: more, rest)
  | other => other

def fractionPart? : Bytes → Option (Option Bytes × Bytes)
  | [] => some (none, [])
  | b :: rest =>
    if b = 46 then (digits1? rest).map fun (digits, rest) => (some digits, rest)
    else some (none, b :: rest)

/-- A sign in front of the exponent's digits: whether it is a minus, and the rest. -/
def exponentSign : Bytes → Bool × Bytes
  | [] => (false, [])
  | b :: rest =>
    if b = 45 then (true, rest) else if b = 43 then (false, rest) else (false, b :: rest)

def exponentPart? : Bytes → Option (Option (Bool × Bytes) × Bytes)
  | [] => some (none, [])
  | b :: rest =>
    if b = 101 ∨ b = 69 then
      let (negative, rest) := exponentSign rest
      (digits1? rest).map fun (digits, rest) => (some (negative, digits), rest)
    else some (none, b :: rest)

/-- The numeral at the front. -/
def numeral? (bs : Bytes) : Option (Numeral × Bytes) := do
  let (negative, rest) := match bs with
    | [] => (false, [])
    | b :: rest => if b = 45 then (true, rest) else (false, b :: rest)
  let (whole, rest) ← wholePart? rest
  let (fraction, rest) ← fractionPart? rest
  let (exponent, rest) ← exponentPart? rest
  some (⟨negative, whole, fraction, exponent⟩, rest)

/-- The rest of `bs` behind the given bytes. -/
def stripFront? : (front bs : Bytes) → Option Bytes
  | [], bs => some bs
  | _ :: _, [] => none
  | a :: front, b :: bs => if a = b then stripFront? front bs else none

/-- The member name at the front with its colon. -/
def memberName? (bs : Bytes) : Option (Bytes × Bytes) := do
  let rest ← stripFront? [34] (skipSpace bs)
  let (name, rest) ← rawString rest
  let rest ← stripFront? [58] (skipSpace rest)
  some (name, rest)

mutual

/-- The value at the front and the rest; the first argument bounds the number of nested calls. -/
def value? : Nat → Bytes → Option (Value × Bytes)
  | 0, _ => none
  | fuel + 1, bs =>
    match skipSpace bs with
    | [] => none
    | b :: rest =>
      if b = 34 then (rawString rest).map fun (raw, rest) => (.string raw, rest)
      else if b = 91 then
        match stripFront? [93] (skipSpace rest) with
        | some rest => some (.array [], rest)
        | none => (elements? fuel rest).map fun (values, rest) => (.array values, rest)
      else if b = 123 then
        match stripFront? [125] (skipSpace rest) with
        | some rest => some (.object [], rest)
        | none => (members? fuel rest).map fun (members, rest) => (.object members, rest)
      else if b = 110 then (stripFront? [117, 108, 108] rest).map fun rest => (.null, rest)
      else if b = 116 then (stripFront? [114, 117, 101] rest).map fun rest => (.bool true, rest)
      else if b = 102 then
        (stripFront? [97, 108, 115, 101] rest).map fun rest => (.bool false, rest)
      else (numeral? (b :: rest)).map fun (numeral, rest) => (.number numeral, rest)

/-- One or more elements up to the closing bracket. -/
def elements? : Nat → Bytes → Option (List Value × Bytes)
  | 0, _ => none
  | fuel + 1, bs => do
    let (value, rest) ← value? fuel bs
    match skipSpace rest with
    | [] => none
    | b :: rest =>
      if b = 93 then some ([value], rest)
      else if b = 44 then
        (elements? fuel rest).map fun (values, rest) => (value :: values, rest)
      else none

/-- One or more members up to the closing brace. -/
def members? : Nat → Bytes → Option (List (Bytes × Value) × Bytes)
  | 0, _ => none
  | fuel + 1, bs => do
    let (name, rest) ← memberName? bs
    let (value, rest) ← value? fuel rest
    match skipSpace rest with
    | [] => none
    | b :: rest =>
      if b = 125 then some ([(name, value)], rest)
      else if b = 44 then
        (members? fuel rest).map fun (members, rest) => ((name, value) :: members, rest)
      else none

end

/-- The value that `bs` holds.  Two nested calls read at least one byte, so the bound never ends a
reading early. -/
def read? (bs : Bytes) : Option Value :=
  match value? (2 * bs.length + 2) bs with
  | some (value, rest) => if (skipSpace rest).isEmpty then some value else none
  | none => none

end CipherVault.Json
