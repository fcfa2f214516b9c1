import CipherVault.Error
/-!
# Requests

Data to encrypt or decrypt together with the parameters that are set explicitly.  Setting a
parameter resolves nothing; defaults and keystores come in when the request is executed.
-/

namespace CipherVault

/-- The explicitly set parameters. -/
structure Parameters where
  algorithm : Option String := none
  key : Option KeyMaterial := none
  keyAlias : Option String := none
  /-- The name of the provider that the request is for. -/
  provider : Option String := none
  iv : Option Bytes := none
deriving DecidableEq

namespace Parameters

/-- The parameters that decide on algorithm and key, as far as they are set; in the order of
`Parameter`. -/
def defined (parameters : Parameters) : List Parameter :=
  (if parameters.algorithm.isSome then [.algorithm] else []) ++
    (if parameters.key.isSome then [.key] else []) ++
    (if parameters.keyAlias.isSome then [.keyAlias] else [])

end Parameters

structure EncryptionRequest where
  plaintext : Bytes
  parameters : Parameters := {}
deriving DecidableEq

structure DecryptionRequest where
  /-- A template, or an initialization vector and the ciphertext behind it. -/
  ciphertext : Bytes
  parameters : Parameters := {}
deriving DecidableEq

namespace Describe

/-- A character of ASCII inside quotes. -/
def quotedChar (c : Char) : List Char :=
  if c = '"' then ['\\', '"']
  else if c = '\\' then ['\\', '\\']
  else if c = '\n' then ['\\', 'n']
  else if c = '\r' then ['\\', 'r']
  else if c = '\t' then ['\\', 't']
  else if c.toNat = 0 then ['\\', '0']
  else if c.toNat < 32 ∨ c.toNat = 127 then
    ['\\', 'u', '\x7b'] ++ Nat.toDigits 16 c.toNat ++ ['\x7d']
  else [c]

def quoted (s : String) : String :=
  String.ofList ('"' :: (s.toList.flatMap quotedChar ++ ['"']))

def bytes (bs : Bytes) : String :=
  "[" ++ ", ".intercalate (bs.map fun b => toString b.toNat) ++ "]"

def optional {α : Type} (describe : α → String) : Option α → String
  | none => "None"
  | some value => "Some(" ++ describe value ++ ")"

/-- A named record with named fields. -/
def record (name : String) (fields : List (String × String)) : String :=
  name ++ " \x7b " ++ ", ".intercalate (fields.map fun (field, value) => field ++ ": " ++ value) ++
    " \x7d"

end Describe

open Describe in
/-- A description that shows no key. -/
def Parameters.describe (parameters : Parameters) : String :=
  record "RequestParameters"
    [("algorithm", optional quoted parameters.algorithm),
      ("key", optional KeyMaterial.describe parameters.key),
      ("key_alias", optional quoted parameters.keyAlias),
      ("provider", optional quoted parameters.provider),
      ("initialization_vector", optional bytes parameters.iv)]

/-- A description that shows neither key nor plaintext. -/
def EncryptionRequest.describe (request : EncryptionRequest) : String :=
  Describe.record "EncryptionRequest"
    [("plaintext", toString request.plaintext.length ++ " bytes"),
      ("parameters", request.parameters.describe)]

def DecryptionRequest.describe (request : DecryptionRequest) : String :=
  Describe.record "DecryptionRequest"
    [("ciphertext", Describe.bytes request.ciphertext),
      ("parameters", request.parameters.describe)]

end CipherVault
