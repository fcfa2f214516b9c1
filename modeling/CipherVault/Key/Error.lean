import CipherVault.Key.Material
import CipherVault.Key.Protection
/-!
# Errors of keystores and their keys
-/

namespace CipherVault

/-- The encoded fields of an image. -/
inductive ImageField where
  | salt
  | nonce
  | payload
  | material
deriving DecidableEq, Repr

def ImageField.name : ImageField → String
  | salt => "salt"
  | nonce => "nonce"
  | payload => "payload"
  | material => "material"

/-- Why a keystore image is not opened or not produced. -/
inductive ImageError where
  | notJson
  | format (found : String)
  | version (found : Nat)
  | notBase64 (field : ImageField)
  | length (field : ImageField) (expected actual : Nat)
  | noIterations
  | storePassword
  | keyPassword (keyAlias : String)
  | duplicateAlias (keyAlias : String)
  | sealing
deriving DecidableEq, Repr

def ImageError.message : ImageError → String
  | notJson => "image is not valid JSON: unexpected form"
  | format found => "unsupported image format '" ++ found ++ "'"
  | version found => "unsupported image version " ++ toString found
  | notBase64 field => "field '" ++ field.name ++ "' is not valid base64"
  | length field expected actual =>
    "field '" ++ field.name ++ "' has " ++ toString actual ++ " bytes, expected " ++
      toString expected
  | noIterations => "key derivation needs at least one iteration"
  | storePassword => "store password does not open the image"
  | keyPassword keyAlias => "key password does not open entry '" ++ keyAlias ++ "'"
  | duplicateAlias keyAlias => "duplicate alias '" ++ keyAlias ++ "'"
  | sealing => "sealing failed"

def MaterialError.fullMessage (e : MaterialError) : String :=
  "Invalid key material: " ++ e.message

/-- What is wrong with a configured keystore. -/
inductive KeystoreFault where
  | unsupportedType (type : String)
  | unreadable (location : String)
  | image (cause : ImageError)
  | key (keyAlias : String) (cause : MaterialError)
  | duplicateIdentity
  | unknownDefault
  | notConfigured
  | noKeystores
deriving DecidableEq, Repr

def KeystoreFault.message : KeystoreFault → String
  | unsupportedType type => "unsupported keystore type '" ++ type ++ "'"
  | unreadable location => "location '" ++ location ++ "' cannot be read"
  | image cause => cause.message
  | key keyAlias cause => "key '" ++ keyAlias ++ "': " ++ cause.fullMessage
  | duplicateIdentity => "duplicate keystore identity"
  | unknownDefault => "default keystore is not configured"
  | notConfigured => "keystore is not configured"
  | noKeystores => "no keystores are configured"

inductive KeyError where
  /-- The configured password of a key disagrees with its protection. -/
  | badPassword (keyAlias : String) (mismatch : PasswordMismatch)
  | invalidKeystore (identity : String) (fault : KeystoreFault)
  /-- Remote keystores are accepted in a configuration and refused when it is used. -/
  | remoteKeystore (identity : String)
  | invalidMaterial (cause : MaterialError)
  /-- An image could not be produced. -/
  | imageEncoding (cause : ImageError)
deriving DecidableEq, Repr

def KeyError.message : KeyError → String
  | badPassword keyAlias mismatch =>
    "Bad password for key '" ++ keyAlias ++ "': " ++ mismatch.message
  | invalidKeystore identity fault =>
    "Invalid keystore configuration for '" ++ identity ++ "': " ++ fault.message
  | remoteKeystore identity =>
    "Unsupported operation: remote keystore '" ++ identity ++ "' is not supported yet"
  | invalidMaterial cause => cause.fullMessage
  | imageEncoding cause => "Keystore image encoding failed: " ++ cause.message

end CipherVault
