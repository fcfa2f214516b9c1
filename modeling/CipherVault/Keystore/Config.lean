import CipherVault.Key.Protection
/-!
# Keystore configuration

Which keystores there are, where their images are found and which passwords open them.
-/

namespace CipherVault

/-- Settings of one key of a local keystore. -/
structure KeyConfig where
  keyAlias : String
  password : Option Password := none
  /-- Whether the key is deprecated; if not given, as the keystore is. -/
  deprecated : Option Bool := none
deriving DecidableEq

/-- A keystore that is loaded from a sealed image. -/
structure LocalKeystoreConfig where
  identity : String
  location : String
  type : String
  password : Password := .none
  /-- Marks the keys deprecated whose settings say nothing. -/
  deprecated : Bool := false
  keys : List KeyConfig := []
deriving DecidableEq

/-- A keystore on another machine. -/
structure RemoteKeystoreConfig where
  identity : String
  url : Option String := none
deriving DecidableEq

inductive KeystoreConfig where
  | ofLocal (config : LocalKeystoreConfig)
  | ofRemote (config : RemoteKeystoreConfig)
deriving DecidableEq

def KeystoreConfig.identity : KeystoreConfig → String
  | ofLocal config => config.identity
  | ofRemote config => config.identity

/-- All keystores in their order and the identity of the default one. -/
structure KeystoresConfig where
  keystores : List KeystoreConfig := []
  default : Option String := none
deriving DecidableEq

namespace LocalKeystoreConfig

/-- The settings that hold for an alias: the last ones given for it. -/
def keyConfig? (config : LocalKeystoreConfig) (keyAlias : String) : Option KeyConfig :=
  config.keys.reverse.find? (·.keyAlias = keyAlias)

end LocalKeystoreConfig

end CipherVault
