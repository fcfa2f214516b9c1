import CipherVault.Base64
import CipherVault.Key.Error
import CipherVault.Transform.Name
/-!
# Errors of encryption and decryption

Every error reaches the caller as it arose.  Causes that depend on a key or on data name lengths
only, and all ways in which a ciphertext fails to decrypt under one transform have one cause.
-/

namespace CipherVault

/-- What a request can set explicitly and a configuration can provide. -/
inductive Parameter where
  | algorithm
  | key
  | keyAlias
deriving DecidableEq, Repr

def Parameter.name : Parameter → String
  | algorithm => "algorithm"
  | key => "key"
  | keyAlias => "key alias"

/-- The segments of a template. -/
inductive TemplateSegment where
  | tag
  | algorithm
  | keyAlias
  | payload
deriving DecidableEq, Repr

def TemplateSegment.name : TemplateSegment → String
  | tag => "tag"
  | algorithm => "algorithm"
  | keyAlias => "key alias"
  | payload => "payload"

/-- Why parameters do not fit an operation. -/
inductive ParameterFault where
  | unsupportedAlgorithm (name : String)
  | ivNotTaken (transform : Transform)
  | ivLength (transform : Transform) (actual : Nat)
  | ivMissing
  | secretNeeded (transform : Transform)
  | rsaKeyNeeded (transform : Transform)
  | rsaPrivateKeyNeeded (transform : Transform)
  | aesKeyLength (actual : Nat)
  | chaChaKeyLength
  | rsaKeyTooSmall
  | templateSegment (segment : TemplateSegment) (value : String)
  | unknownProvider (name : String)
deriving DecidableEq, Repr

def ParameterFault.message : ParameterFault → String
  | unsupportedAlgorithm name => "unsupported algorithm '" ++ name ++ "'"
  | ivNotTaken transform => transform.name ++ " does not take an initialization vector"
  | ivLength transform actual =>
    transform.name ++ " needs a " ++ toString transform.ivLength ++
      "-byte initialization vector, got " ++ toString actual
  | ivMissing => "initialization vector missing"
  | secretNeeded transform => transform.name ++ " needs a secret key"
  | rsaKeyNeeded transform => transform.name ++ " encryption needs an RSA key"
  | rsaPrivateKeyNeeded transform => transform.name ++ " decryption needs an RSA private key"
  | aesKeyLength actual => "AES keys are 16, 24 or 32 bytes, got " ++ toString actual
  | chaChaKeyLength => "invalid key: Invalid Length"
  | rsaKeyTooSmall => "RSA key too small for the requested padding"
  | templateSegment segment value =>
    "template " ++ segment.name ++ " '" ++ value ++ "' must be non-empty and free of braces"
  | unknownProvider name => "unknown provider '" ++ name ++ "'"

/-- Why data does not encrypt, decrypt or decode. -/
inductive CryptoFault where
  | payloadTooShort (length ivLength : Nat)
  | notAligned (length : Nat)
  | badPadding
  | unauthenticated
  | notRsaBlocks (length size : Nat)
  /-- More data than Galois counter mode takes. -/
  | gcmEncryption
  /-- More data than ChaCha20-Poly1305 takes. -/
  | chaChaEncryption
  | rsaEncryption (cause : Rsa.KeyFault)
  | base64 (cause : Base64.DecodeError)
  | notUtf8 (cause : Utf8.DecodeError)
  | notEncoded
  /-- A cause that another provider reports in its own words. -/
  | other (detail : String)
deriving DecidableEq, Repr

def CryptoFault.message : CryptoFault → String
  | payloadTooShort length ivLength =>
    "payload of " ++ toString length ++ " bytes is shorter than the " ++ toString ivLength ++
      "-byte IV"
  | notAligned length =>
    "NoPadding input of " ++ toString length ++ " bytes is not a multiple of the block size"
  | badPadding => "bad padding or wrong key"
  | unauthenticated => "authentication failed or wrong key"
  | notRsaBlocks length size =>
    "RSA ciphertext of " ++ toString length ++ " bytes is not a whole number of " ++
      toString size ++ "-byte blocks"
  | gcmEncryption => "AES-GCM encryption failed"
  | chaChaEncryption => "ChaCha20-Poly1305 encryption failed"
  | rsaEncryption cause => "RSA encryption failed: " ++ cause.message
  | base64 cause => "Base64 decode error: " ++ cause.message
  | notUtf8 cause => "plaintext is not UTF-8: " ++ cause.message
  | notEncoded => "value is neither a template nor base64"
  | other detail => detail

inductive CipherError where
  /-- Unknown names, misuse of initialization vectors, keys that do not fit. -/
  | illegal (fault : ParameterFault)
  | keyNotFound (keyAlias : String)
  /-- Integrity and format failures, among them decryption with a wrong key. -/
  | failure (fault : CryptoFault)
  /-- A parameter is neither given nor configured. -/
  | missingDefault (parameter : Parameter)
  /-- A template is asked of a result whose key has no alias. -/
  | templateWithoutAlias
  /-- No provider recognizes the value. -/
  | unrecognized
  | key (cause : KeyError)
deriving DecidableEq, Repr

def CipherError.message : CipherError → String
  | illegal fault => "Illegal crypto parameters: " ++ fault.message
  | keyNotFound keyAlias => "Key not found for alias '" ++ keyAlias ++ "'"
  | failure fault => "Cryptographic operation failed: " ++ fault.message
  | missingDefault parameter =>
    "Operation requires a default " ++ parameter.name ++ " but none is configured"
  | templateWithoutAlias =>
    "Unsupported operation: template export needs a key resolved through a keystore alias"
  | unrecognized => "Value is not a recognized encrypted format"
  | key cause => cause.message

end CipherVault
