import CipherVault.Template
import CipherVault.Transform.Cipher
/-!
# Results

What an encryption yields in its exported forms, and what a decryption yields as bytes and as text.
-/

namespace CipherVault

structure EncryptResult where
  data : EncryptedData
  algorithm : String
  /-- The alias of the key, if it came from a keystore. -/
  keyAlias : Option String
  tag : String
deriving DecidableEq

namespace EncryptResult

def bytes (result : EncryptResult) : Bytes :=
  result.data.payload

def base64 (result : EncryptResult) : String :=
  Base64.encode result.bytes

/-- The result as a template, which needs the alias of the key; no key ever stands in one. -/
def template (result : EncryptResult) : Except CipherError String :=
  match result.keyAlias with
  | none => .error .templateWithoutAlias
  | some keyAlias => Template.render result.tag ⟨result.algorithm, keyAlias, result.base64⟩

end EncryptResult

structure DecryptResult where
  bytes : Bytes
deriving DecidableEq

namespace DecryptResult

def text (result : DecryptResult) : Except CipherError String :=
  (Utf8.decode result.bytes).mapError fun cause => .failure (.notUtf8 cause)

def describe (result : DecryptResult) : String :=
  "DecryptResult(" ++ toString result.bytes.length ++ " bytes, REDACTED)"

end DecryptResult

end CipherVault
