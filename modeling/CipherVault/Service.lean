import CipherVault.Provider
/-!
# The encryption service

A service has a default provider, with which it encrypts, and a list of providers, the first of
which that recognizes a value decrypts it.  Requests with explicit parameters may name their
provider.
-/

namespace CipherVault

/-- A provider under a handle; two registrations with one handle are of one provider. -/
structure Registration where
  handle : Nat
  provider : Provider

structure Service where
  default : Provider
  /-- In the order in which they are asked. -/
  providers : List Provider

namespace Service

/-- The service over the listed providers; the default one is added behind them if it is not
listed. -/
def ofProviders (default : Registration) (listed : List Registration) : Service :=
  let registered :=
    if listed.any (·.handle = default.handle) then listed else listed ++ [default]
  ⟨default.provider, registered.map (·.provider)⟩

/-- The first provider that recognizes a text. -/
def recognizing? (service : Service) (text : String) : Option Provider :=
  service.providers.find? (·.recognizes text)

/-- The provider with the given name, or the default one without a name. -/
def select (service : Service) : Option String → Except CipherError Provider
  | none => .ok service.default
  | some name => match service.providers.find? (·.name = name) with
    | some provider => .ok provider
    | none => .error (.illegal (.unknownProvider name))

/-- Encrypt bytes with explicit parameters. -/
def encryptBytes (service : Service) (parameters : Parameters) (entropy : Entropy) (data : Bytes) :
    Traced CipherError EncryptResult := do
  let provider ← Traced.ofExcept (service.select parameters.provider)
  Traced.report (.dispatched "encrypt" provider.name)
  provider.encrypt entropy ⟨data, parameters⟩

/-- Encrypt a text with explicit parameters. -/
def encryptText (service : Service) (parameters : Parameters) (entropy : Entropy)
    (text : String) : Traced CipherError EncryptResult :=
  service.encryptBytes parameters entropy (Utf8.encode text)

/-- Encrypt a text with the defaults and export it as a template. -/
def encrypt (service : Service) (entropy : Entropy) (text : String) :
    Traced CipherError String := do
  let result ← service.encryptText {} entropy text
  Traced.ofExcept result.template

/-- Decrypt bytes with explicit parameters. -/
def decryptBytes (service : Service) (parameters : Parameters) (data : Bytes) :
    Traced CipherError DecryptResult := do
  let provider ← Traced.ofExcept (service.select parameters.provider)
  Traced.report (.dispatched "decrypt" provider.name)
  provider.decrypt ⟨data, parameters⟩

/-- What a text stands for when `provider` is to decrypt it: itself in the provider's format, else
the bytes it is the base64 of. -/
def ciphertextOf (provider : Provider) (text : String) : Except CipherError Bytes :=
  if provider.recognizes text then .ok (Utf8.encode text)
  else (Base64.decode (Text.trim text)).mapError fun _ => .failure .notEncoded

/-- Decrypt a text with explicit parameters. -/
def decryptText (service : Service) (parameters : Parameters) (text : String) :
    Traced CipherError DecryptResult := do
  let provider ← Traced.ofExcept (service.select parameters.provider)
  let ciphertext ← Traced.ofExcept (ciphertextOf provider text)
  Traced.report (.dispatched "decrypt" provider.name)
  provider.decrypt ⟨ciphertext, parameters⟩

/-- The bytes of a text that no provider recognizes. -/
def unrecognizedPayload (text : String) : Except CipherError Bytes :=
  let encoded := Text.trim text
  if encoded.isEmpty then .error .unrecognized
  else (Base64.decode encoded).mapError fun _ => .unrecognized

/-- Decrypt a text in the format of any provider, or else as base64 with the default provider and
the defaults. -/
def decrypt (service : Service) (text : String) : Traced CipherError DecryptResult :=
  match service.recognizing? text with
  | some provider => do
    Traced.report (.dispatched "decrypt" provider.name)
    provider.decrypt ⟨Utf8.encode text, {}⟩
  | none => do
    let payload ← Traced.ofExcept (unrecognizedPayload text)
    Traced.report (.dispatched "decrypt" service.default.name)
    service.default.decrypt ⟨payload, {}⟩

/-- What an encrypted text says of itself, to the first provider that recognizes it. -/
def metaInfo? (service : Service) (text : String) : Option MetaInfo :=
  (service.recognizing? text).bind (·.metaInfo? text)

end Service

end CipherVault
