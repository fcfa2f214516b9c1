import CipherVault.Key.Material
import CipherVault.Keystore.AliasMap
/-!
# Keystores

A keystore has an identity and finds keys by alias.  Its keys come from a sealed image or straight
from the application; in the second case a key without a deprecation mark of its own takes the
keystore's mark when it is looked up.
-/

namespace CipherVault

/-- A key together with the alias it was found under. -/
structure AliasedKey where
  material : KeyMaterial
  keyAlias : String
  deprecated : Bool
deriving DecidableEq

/-- A key as a loaded keystore holds it, with the alias of its entry; its deprecation was settled
when it was loaded. -/
structure LocalKey where
  material : KeyMaterial
  keyAlias : String
  deprecated : Bool
deriving DecidableEq

/-- The keys of a loaded keystore.  Each stands under the alias that it names. -/
structure LocalKeys extends AliasMap LocalKey where
  ownAlias : ∀ entry ∈ entries, entry.2.keyAlias = entry.1

namespace LocalKeys

def empty : LocalKeys :=
  ⟨.empty, nofun⟩

/-- The keys with one more under its alias, in place of what stood there. -/
def add (keys : LocalKeys) (key : LocalKey) : LocalKeys where
  toAliasMap := keys.insert key.keyAlias key
  ownAlias := by
    intro entry hmem
    rcases List.mem_append.mp hmem with hbefore | hbehind
    · exact keys.ownAlias entry (List.mem_filter.mp hbefore).1
    · rcases List.mem_cons.mp hbehind with rfl | hbehind
      · rfl
      · exact keys.ownAlias entry (List.mem_filter.mp hbehind).1

end LocalKeys

/-- A keystore loaded from a sealed image. -/
structure LocalStore where
  identity : String
  location : String
  deprecated : Bool
  keys : LocalKeys

/-- The key under an alias, reported with the alias that it was loaded with. -/
def LocalStore.find? (store : LocalStore) (keyAlias : String) : Option AliasedKey :=
  (store.keys.get? keyAlias).map fun key => ⟨key.material, key.keyAlias, key.deprecated⟩

/-- A key as the application gave it, with its own deprecation mark if it has one. -/
structure StaticKey where
  material : KeyMaterial
  deprecated : Option Bool
deriving DecidableEq

/-- A keystore assembled by the application. -/
structure StaticStore where
  identity : String
  deprecated : Bool
  keys : AliasMap StaticKey

namespace StaticStore

def empty (identity : String) : StaticStore :=
  ⟨identity, false, .empty⟩

/-- The store with its deprecation mark set. -/
def markDeprecated (store : StaticStore) (deprecated : Bool) : StaticStore :=
  { store with deprecated }

/-- The store with a key whose deprecation is given, or is that of the store.  Every key is added by
this. -/
def insert (store : StaticStore) (keyAlias : String) (material : KeyMaterial)
    (deprecated : Option Bool := none) : StaticStore :=
  { store with keys := store.keys.insert keyAlias ⟨material, deprecated⟩ }

/-- The store with a key that takes the deprecation of the store. -/
def withKey (store : StaticStore) (keyAlias : String) (material : KeyMaterial) : StaticStore :=
  store.insert keyAlias material none

/-- The store with a key that has its own deprecation. -/
def withKeyDeprecation (store : StaticStore) (keyAlias : String) (material : KeyMaterial)
    (deprecated : Bool) : StaticStore :=
  store.insert keyAlias material (some deprecated)

def withDeprecatedKey (store : StaticStore) (keyAlias : String) (material : KeyMaterial) :
    StaticStore :=
  store.withKeyDeprecation keyAlias material true

def find? (store : StaticStore) (keyAlias : String) : Option AliasedKey :=
  (store.keys.get? keyAlias).map fun key =>
    ⟨key.material, keyAlias, key.deprecated.getD store.deprecated⟩

end StaticStore

inductive KeyStore where
  | ofImage (store : LocalStore)
  | ofKeys (store : StaticStore)

namespace KeyStore

def identity : KeyStore → String
  | ofImage store => store.identity
  | ofKeys store => store.identity

def deprecated : KeyStore → Bool
  | ofImage store => store.deprecated
  | ofKeys store => store.deprecated

/-- The key under an alias. -/
def find? : KeyStore → String → Option AliasedKey
  | ofImage store, keyAlias => store.find? keyAlias
  | ofKeys store, keyAlias => store.find? keyAlias

/-- All aliases in their order. -/
def aliases : KeyStore → List String
  | ofImage store => store.keys.aliases
  | ofKeys store => store.keys.aliases

/-- The key under an alias if it is of the given kind. -/
def findOfKind? (store : KeyStore) (keyAlias : String) (kind : KeyKind) : Option KeyMaterial :=
  ((store.find? keyAlias).filter (·.material.kind = kind)).map (·.material)

end KeyStore

end CipherVault
