import CipherVault.Json.Value
/-!
# Records and scalars in JSON

A record is written as an object, in any order of its fields and with unknown fields ignored, or as
an array of its fields in their declared order, from which trailing ones may be missing.  A known
field stands at most once.  Null is a value of optional fields only.
-/

namespace CipherVault.Json.Value

def string? : Value → Option String
  | .string raw => text? raw
  | _ => none

def bool? : Value → Option Bool
  | .bool value => some value
  | _ => none

/-- A natural number below 2^32, written without fraction and exponent. -/
def natural32? : Value → Option UInt32
  | .number numeral => numeral.natural?.bind fun n =>
    if n < UInt32.size then some (UInt32.ofNat n) else none
  | _ => none

/-- Null, or what `decode` reads. -/
def optional? {α : Type} (decode : Value → Option α) : Value → Option (Option α)
  | .null => some none
  | value => (decode value).map some

def list? {α : Type} (decode : Value → Option α) : Value → Option (List α)
  | .array elements => elements.mapM decode
  | _ => none

/-- The members of an object under the texts that their names spell. -/
def namedMembers? (members : List (Bytes × Value)) : Option (List (String × Value)) :=
  members.mapM fun (name, value) => (text? name).map (·, value)

/-- The value of the one member called `name`, or that there is none; two of them are refused. -/
def theMember? (name : String) (members : List (String × Value)) : Option (Option Value) :=
  match members.filter (·.1 = name) with
  | [] => some none
  | [(_, value)] => some (some value)
  | _ => none

/-- The given fields of a record, in the order of `names`. -/
def fields? (names : List String) : Value → Option (List (Option Value))
  | .object members => do
    let members ← namedMembers? members
    names.mapM fun name => theMember? name members
  | .array elements =>
    if elements.length ≤ names.length then
      some (elements.map some ++ List.replicate (names.length - elements.length) none)
    else none
  | _ => none

/-- A field that has to stand in the record. -/
def required? {α : Type} (field : Option Value) (decode : Value → Option α) : Option α :=
  field.bind decode

/-- A field with a default. -/
def defaulted? {α : Type} (field : Option Value) (default : α) (decode : Value → Option α) :
    Option α :=
  match field with
  | none => some default
  | some value => decode value

/-- Containers may nest this deep around and inside a value that is read twice. -/
def maxDepth : Nat := 127

mutual

/-- Whether a value that `depth` containers enclose can be kept whole for a second reading: every
string spells a text, every numeral is finite and no container nests too deep. -/
def isKeepable (depth : Nat) : Value → Bool
  | .null => true
  | .bool _ => true
  | .number numeral => numeral.isFinite
  | .string raw => (text? raw).isSome
  | .array elements => depth < maxDepth && allKeepable (depth + 1) elements
  | .object members => depth < maxDepth && allMembersKeepable (depth + 1) members

def allKeepable (depth : Nat) : List Value → Bool
  | [] => true
  | value :: rest => isKeepable depth value && allKeepable depth rest

def allMembersKeepable (depth : Nat) : List (Bytes × Value) → Bool
  | [] => true
  | (name, value) :: rest =>
    (text? name).isSome && isKeepable depth value && allMembersKeepable depth rest

end

end CipherVault.Json.Value
