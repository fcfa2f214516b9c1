import CipherVault.Json.Reader
import CipherVault.Json.Record
import CipherVault.Keystore.Config
/-!
# Keystore configuration in JSON

A keystore names its kind, `local` or `remote`, in a field of its record.  Because the kind may
stand behind the other fields, the record is kept whole first, which every string, numeral and
nesting in it has to allow.
-/

namespace CipherVault

open Json

namespace KeyConfig

def ofJson? (value : Value) : Option KeyConfig := do
  match ← value.fields? ["alias", "password", "deprecated"] with
  | [keyAlias, password, deprecated] => do
    let keyAlias ← Value.required? keyAlias Value.string?
    let password ← Value.defaulted? password none (Value.optional? Value.string?)
    let deprecated ← Value.defaulted? deprecated none (Value.optional? Value.bool?)
    some ⟨keyAlias, password.map Password.mk, deprecated⟩
  | _ => none

end KeyConfig

namespace LocalKeystoreConfig

def ofJson? (value : Value) : Option LocalKeystoreConfig := do
  match ← value.fields? ["identity", "location", "type", "password", "deprecated", "keys"] with
  | [identity, location, type, password, deprecated, keys] => do
    let identity ← Value.required? identity Value.string?
    let location ← Value.required? location Value.string?
    let type ← Value.required? type Value.string?
    let password ← Value.defaulted? password "" Value.string?
    let deprecated ← Value.defaulted? deprecated false Value.bool?
    let keys ← Value.defaulted? keys [] (Value.list? KeyConfig.ofJson?)
    some ⟨identity, location, type, ⟨password⟩, deprecated, keys⟩
  | _ => none

/-- The configuration that a JSON text holds. -/
def parse? (text : Bytes) : Option LocalKeystoreConfig :=
  (read? text).bind ofJson?

end LocalKeystoreConfig

namespace RemoteKeystoreConfig

def ofJson? (value : Value) : Option RemoteKeystoreConfig := do
  match ← value.fields? ["identity", "url"] with
  | [identity, url] => do
    let identity ← Value.required? identity Value.string?
    let url ← Value.defaulted? url none (Value.optional? Value.string?)
    some ⟨identity, url⟩
  | _ => none

end RemoteKeystoreConfig

namespace KeystoreConfig

/-- The kind that a record names and the record without it: a field called `kind` of an object, or
the first element of an array. -/
def splitKind? : Value → Option (String × Value)
  | .array (kind :: rest) => do
    let kind ← kind.string?
    some (kind, .array rest)
  | .object members => do
    let named ← Value.namedMembers? members
    let kind ← (← Value.theMember? "kind" named).bind Value.string?
    some (kind, .object (members.filter fun (name, _) => text? name ≠ some "kind"))
  | _ => none

/-- The keystore in a value that `depth` containers enclose. -/
def ofJson? (depth : Nat) (value : Value) : Option KeystoreConfig :=
  if value.isKeepable depth then do
    let (kind, fields) ← splitKind? value
    if kind = "local" then (LocalKeystoreConfig.ofJson? fields).map ofLocal
    else if kind = "remote" then (RemoteKeystoreConfig.ofJson? fields).map ofRemote
    else none
  else none

end KeystoreConfig

namespace KeystoresConfig

/-- Two containers enclose each keystore: the record and its list. -/
def ofJson? (value : Value) : Option KeystoresConfig := do
  match ← value.fields? ["keystores", "default_keystore"] with
  | [keystores, default] => do
    let keystores ← Value.defaulted? keystores [] (Value.list? (KeystoreConfig.ofJson? 2))
    let default ← Value.defaulted? default none (Value.optional? Value.string?)
    some ⟨keystores, default⟩
  | _ => none

/-- The configuration that a JSON text holds. -/
def parse? (text : Bytes) : Option KeystoresConfig :=
  (read? text).bind ofJson?

end KeystoresConfig

end CipherVault
