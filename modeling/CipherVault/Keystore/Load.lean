import CipherVault.Hash.Sha256
import CipherVault.Keystore.Config
import CipherVault.Keystore.Image
import CipherVault.Keystore.Store
import CipherVault.Log
/-!
# Loading keystores from images

A keystore is loaded whole or not at all: every entry of the image is unlocked with its configured
password, in the order of the image, and the first failure ends the loading.
-/

namespace CipherVault

/-- Where images are found: the bytes at each location that can be read. -/
abbrev ImageSource := String → Option Bytes

namespace ImageSource

def empty : ImageSource := fun _ => none

/-- The source with an image at a location, whatever was there before. -/
def register (source : ImageSource) (location : String) (image : Bytes) : ImageSource :=
  fun place => if place = location then some image else source place

end ImageSource

/-- The error in which an entry that does not yield its encoded key is reported. -/
def ImageError.entryError (identity : String) : ImageError → KeyError
  | .keyPassword keyAlias => .badPassword keyAlias .wrongPassword
  | other => .invalidKeystore identity (.image other)

namespace LocalStore

/-- The key of an entry under the password configured for it. -/
def unlock (identity : String) (entry : ImageEntry) (config : Option KeyConfig) :
    Traced KeyError KeyMaterial := do
  let password := Password.nonEmpty (config.bind (·.password))
  if let some mismatch := (ProtectionState.classify entry.isProtected password).mismatch then
    throw (.badPassword entry.keyAlias mismatch)
  let encoded ← Traced.ofExcept ((entry.encodedKey password).mapError
    (ImageError.entryError identity))
  let material ← Traced.ofExcept ((KeyMaterial.decode entry.kind encoded).mapError
    fun cause => .invalidKeystore identity (.key entry.keyAlias cause))
  Traced.report (.keyUnlocked identity entry.keyAlias entry.kind (fingerprint encoded))
  return material

/-- The keys of the entries, added to those before them. -/
def unlockAll (config : LocalKeystoreConfig) :
    LocalKeys → List ImageEntry → Traced KeyError LocalKeys
  | keys, [] => pure keys
  | keys, entry :: rest => do
    let keyConfig := config.keyConfig? entry.keyAlias
    let material ← unlock config.identity entry keyConfig
    let deprecated := (keyConfig.bind (·.deprecated)).getD config.deprecated
    unlockAll config (keys.add ⟨material, entry.keyAlias, deprecated⟩) rest

/-- The configured aliases that are not among `keys`, each once, in their order. -/
def absentAliases (config : LocalKeystoreConfig) (keys : LocalKeys) : List String :=
  ((config.keys.map (·.keyAlias)).foldl (fun map keyAlias => map.insert keyAlias ())
    AliasMap.empty).aliases.filter fun keyAlias => !keys.contains keyAlias

/-- The image file that a configuration points at, if it names the right type. -/
def locate (config : LocalKeystoreConfig) (source : ImageSource) : Except KeyError Bytes :=
  if Text.upperAscii config.type ≠ imageFormat then
    .error (.invalidKeystore config.identity (.unsupportedType config.type))
  else match source config.location with
    | none => .error (.invalidKeystore config.identity (.unreadable config.location))
    | some bytes => .ok bytes

/-- The keystore that a configuration describes. -/
def load (config : LocalKeystoreConfig) (source : ImageSource) : Traced KeyError LocalStore := do
  let bytes ← Traced.ofExcept (locate config source)
  let entries ← Traced.ofExcept ((SealedImage.openEntries bytes config.password).mapError
    fun cause => .invalidKeystore config.identity (.image cause))
  let keys ← unlockAll config .empty entries
  Traced.reportAll ((absentAliases config keys).map (.keyNotInImage config.identity))
  Traced.report (.keystoreLoaded config.identity keys.size config.deprecated)
  return ⟨config.identity, config.location, config.deprecated, keys⟩

end LocalStore

end CipherVault
