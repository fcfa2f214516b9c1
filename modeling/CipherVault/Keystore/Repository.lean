import CipherVault.Keystore.Load
/-!
# Repositories

All configured keystores under distinct identities, with a default one.  A repository is built whole
or not at all, so a broken keystore never shows later as a missing key.
-/

namespace CipherVault

/-- Keystores and the place of the default one among them. -/
structure Repository where
  keystores : List KeyStore
  defaultIndex : Option (Fin keystores.length)

namespace Repository

/-- The default keystore. -/
def default (repository : Repository) : Option KeyStore :=
  repository.defaultIndex.map (repository.keystores[·])

/-- The first identity that stood before. -/
def repeatedIdentity? : (seen identities : List String) → Option String
  | _, [] => none
  | seen, identity :: rest =>
    if identity ∈ seen then some identity else repeatedIdentity? (identity :: seen) rest

def find? (keystores : List KeyStore) (identity : String) : Option KeyStore :=
  keystores.find? (·.identity = identity)

def index? (keystores : List KeyStore) (identity : String) : Option (Fin keystores.length) :=
  keystores.findFinIdx? (·.identity = identity)

/-- The place of the keystore that a default pointer names, or the first place without a pointer. -/
def chooseDefault (keystores : List KeyStore) :
    Option String → Except KeyError (Option (Fin keystores.length))
  | some identity => match index? keystores identity with
    | some index => .ok (some index)
    | none => .error (.invalidKeystore identity .unknownDefault)
  | none => .ok (if h : 0 < keystores.length then some ⟨0, h⟩ else none)

def ofKeystores (keystores : List KeyStore) (pointer : Option String) :
    Traced KeyError Repository := do
  if let some identity := repeatedIdentity? [] (keystores.map (·.identity)) then
    throw (.invalidKeystore identity .duplicateIdentity)
  let index ← Traced.ofExcept (chooseDefault keystores pointer)
  let repository : Repository := ⟨keystores, index⟩
  Traced.reportAll (repository.default.toList.map fun keystore =>
    .repositoryReady keystores.length keystore.identity)
  return repository

/-- The keystore of one configuration. -/
def loadOne (source : ImageSource) : KeystoreConfig → Traced KeyError KeyStore
  | .ofLocal config => do
    let store ← LocalStore.load config source
    return .ofImage store
  | .ofRemote config => throw (.remoteKeystore config.identity)

/-- The keystores in the order of their configurations, up to the first failure. -/
def loadAll (source : ImageSource) : List KeystoreConfig → Traced KeyError (List KeyStore)
  | [] => pure []
  | config :: rest => do
    let first ← loadOne source config
    let more ← loadAll source rest
    return first :: more

def load (config : KeystoresConfig) (source : ImageSource) : Traced KeyError Repository := do
  let keystores ← loadAll source config.keystores
  ofKeystores keystores config.default

/-- The keystore with the given identity. -/
def get? (repository : Repository) (identity : String) : Option KeyStore :=
  find? repository.keystores identity

def identities (repository : Repository) : List String :=
  repository.keystores.map (·.identity)

def size (repository : Repository) : Nat :=
  repository.keystores.length

def isEmpty (repository : Repository) : Bool :=
  repository.keystores.isEmpty

end Repository

end CipherVault
