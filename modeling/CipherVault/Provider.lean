import CipherVault.Keystore.Repository
import CipherVault.Log
import CipherVault.Resolution
import CipherVault.Result
/-!
# Providers

A provider owns one format of encrypted values: it encrypts, decrypts and recognizes it.  The
`v2c` provider writes templates; its keys come from one keystore and its defaults from one
configuration.
-/

namespace CipherVault

structure Provider where
  /-- The name by which requests ask for the provider. -/
  name : String
  encrypt : Entropy → EncryptionRequest → Traced CipherError EncryptResult
  decrypt : DecryptionRequest → Traced CipherError DecryptResult
  /-- Whether a text is in the provider's format. -/
  recognizes : String → Bool
  /-- What a text in the provider's format says of itself. -/
  metaInfo? : String → Option MetaInfo

/-- The provider of templates. -/
structure TemplateProvider where
  keystore : KeyStore
  defaults : Defaults

namespace TemplateProvider

def providerName : String := "v2c"

/-- The first segment of every template that the provider writes. -/
def tag : String := "v2c"

/-- The provider over the keystore that the defaults name, or over the default keystore. -/
def ofRepository (repository : Repository) (defaults : Defaults) :
    Traced CipherError TemplateProvider := do
  let keystore ← match defaults.keystore with
    | some identity => match repository.get? identity with
      | some keystore => pure keystore
      | none => throw (.key (.invalidKeystore identity .notConfigured))
    | none => match repository.default with
      | some keystore => pure keystore
      | none => throw (.key (.invalidKeystore "<default>" .noKeystores))
  Traced.report (.providerBound keystore.identity)
  return ⟨keystore, defaults⟩

def resolve (provider : TemplateProvider) (parameters : Parameters) (embedded : Option MetaInfo) :
    Except CipherError Resolved :=
  Resolved.resolve provider.keystore provider.defaults parameters embedded

/-- The warning that an encryption with a deprecated key gives. -/
def deprecationEvents (resolved : Resolved) : List LogEvent :=
  match resolved.key.source with
  | .stored keyAlias true => [.deprecatedKeyUsed keyAlias resolved.algorithm]
  | _ => []

def encrypt (provider : TemplateProvider) (entropy : Entropy) (request : EncryptionRequest) :
    Traced CipherError EncryptResult := do
  let resolved ← Traced.ofExcept (provider.resolve request.parameters none)
  let transform ← Traced.ofExcept (Transform.parse resolved.algorithm)
  Traced.reportAll (deprecationEvents resolved)
  let data ← Traced.reportFailure
    (transform.encrypt resolved.key.material entropy request.parameters.iv request.plaintext)
    fun e => .cryptoFailed "encrypt" e.message
  return ⟨data, resolved.algorithm, resolved.key.keyAlias?, tag⟩

/-- The template that bytes spell. -/
def template? (ciphertext : Bytes) : Option Template :=
  (Utf8.decode ciphertext).toOption.bind (Template.parse? tag)

/-- The payload of a ciphertext: what a template holds in base64, or all of it. -/
def payload (ciphertext : Bytes) : Option Template → Except CipherError Bytes
  | some template =>
    (Base64.decode template.payload).mapError fun cause => .failure (.base64 cause)
  | none => .ok ciphertext

def decrypt (provider : TemplateProvider) (request : DecryptionRequest) :
    Traced CipherError DecryptResult := do
  let template := template? request.ciphertext
  let resolved ← Traced.ofExcept
    (provider.resolve request.parameters (template.map Template.metaInfo))
  let transform ← Traced.ofExcept (Transform.parse resolved.algorithm)
  let payload ← Traced.ofExcept (payload request.ciphertext template)
  let plaintext ← Traced.reportFailure (transform.decrypt resolved.key.material payload)
    fun e => .cryptoFailed "decrypt" e.message
  return ⟨plaintext⟩

def toProvider (provider : TemplateProvider) : Provider where
  name := providerName
  encrypt := provider.encrypt
  decrypt := provider.decrypt
  recognizes text := (Template.parse? tag text).isSome
  metaInfo? text := (Template.parse? tag text).map Template.metaInfo

end TemplateProvider

end CipherVault
