import CipherVault.Json.Reader
import CipherVault.Json.Record
import CipherVault.Keystore.Store
import CipherVault.Request
import CipherVault.Template
/-!
# Resolution of algorithm and key

The algorithm is the one set on the request, else the one embedded in a template, else the default.
The key is the one set on the request, else the one stored under the first alias that is set,
embedded or configured; an alias that the keystore lacks is an error and no reason to try the next.
-/

namespace CipherVault

/-- What applies where a request leaves a parameter out, and which keystore the keys come from. -/
structure Defaults where
  algorithm : Option String := none
  keyAlias : Option String := none
  /-- The identity of the keystore; if not given, the default keystore. -/
  keystore : Option String := none
deriving DecidableEq

namespace Defaults

open Json

def ofJson? (value : Value) : Option Defaults := do
  match ← value.fields? ["default_algorithm", "default_key_alias", "keystore_name"] with
  | [algorithm, keyAlias, keystore] => do
    let algorithm ← Value.defaulted? algorithm none (Value.optional? Value.string?)
    let keyAlias ← Value.defaulted? keyAlias none (Value.optional? Value.string?)
    let keystore ← Value.defaulted? keystore none (Value.optional? Value.string?)
    some ⟨algorithm, keyAlias, keystore⟩
  | _ => none

/-- The defaults that a JSON text holds. -/
def parse? (text : Bytes) : Option Defaults :=
  (read? text).bind ofJson?

end Defaults

/-- Where a key came from. -/
inductive KeySource where
  | explicit
  | stored (keyAlias : String) (deprecated : Bool)
deriving DecidableEq, Repr

structure ResolvedKey where
  material : KeyMaterial
  source : KeySource
deriving DecidableEq

namespace ResolvedKey

def keyAlias? (key : ResolvedKey) : Option String :=
  match key.source with
  | .stored keyAlias _ => some keyAlias
  | .explicit => none

def isDeprecated (key : ResolvedKey) : Bool :=
  match key.source with
  | .stored _ deprecated => deprecated
  | .explicit => false

end ResolvedKey

structure Resolved where
  algorithm : String
  key : ResolvedKey
deriving DecidableEq

namespace Resolved

def chooseAlgorithm (parameters : Parameters) (embedded : Option MetaInfo) (defaults : Defaults) :
    Option String :=
  if .algorithm ∈ parameters.defined then parameters.algorithm
  else embedded.map (·.algorithm) <|> defaults.algorithm

def chooseAlias (parameters : Parameters) (embedded : Option MetaInfo) (defaults : Defaults) :
    Option String :=
  parameters.keyAlias <|> embedded.map (·.keyAlias) <|> defaults.keyAlias

/-- The key under an alias with what the keystore says of it. -/
def lookUp (store : KeyStore) (keyAlias : String) : Except CipherError ResolvedKey :=
  match store.find? keyAlias with
  | some found => .ok ⟨found.material, .stored found.keyAlias found.deprecated⟩
  | none => .error (.keyNotFound keyAlias)

/-- The key under the alias that is chosen. -/
def storedKey (store : KeyStore) (parameters : Parameters) (embedded : Option MetaInfo)
    (defaults : Defaults) : Except CipherError ResolvedKey :=
  match chooseAlias parameters embedded defaults with
  | some keyAlias => lookUp store keyAlias
  | none => .error (.missingDefault .keyAlias)

def chooseKey (store : KeyStore) (parameters : Parameters) (embedded : Option MetaInfo)
    (defaults : Defaults) : Except CipherError ResolvedKey :=
  match parameters.key with
  | some material =>
    if .key ∈ parameters.defined then .ok ⟨material, .explicit⟩
    else storedKey store parameters embedded defaults
  | none => storedKey store parameters embedded defaults

/-- Algorithm and key of a request; a missing algorithm is reported before any key is looked for. -/
def resolve (store : KeyStore) (defaults : Defaults) (parameters : Parameters)
    (embedded : Option MetaInfo) : Except CipherError Resolved :=
  match chooseAlgorithm parameters embedded defaults with
  | none => .error (.missingDefault .algorithm)
  | some algorithm => (chooseKey store parameters embedded defaults).map (⟨algorithm, ·⟩)

end Resolved

end CipherVault
