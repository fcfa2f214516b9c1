import CipherVault.Rsa.Encoding
/-!
# Key material

What an alias stands for: a secret of any length, an RSA private key, or an RSA public key, with one
canonical encoding for each kind.
-/

namespace CipherVault

inductive KeyKind where
  | secret
  | rsaPrivate
  | rsaPublic
deriving DecidableEq, Repr

namespace KeyKind

def name : KeyKind → String
  | secret => "secret"
  | rsaPrivate => "rsa-private"
  | rsaPublic => "rsa-public"

def ofName? (name : String) : Option KeyKind :=
  [secret, rsaPrivate, rsaPublic].find? (·.name = name)

@[simp]
theorem ofName?_name (kind : KeyKind) : ofName? kind.name = some kind := by
  cases kind <;> decide

end KeyKind

/-- The bytes of a symmetric key. -/
structure SecretKey where
  bytes : Bytes
deriving DecidableEq

namespace SecretKey

def length (key : SecretKey) : Nat :=
  key.bytes.length

def isEmpty (key : SecretKey) : Bool :=
  key.bytes.isEmpty

def describe (key : SecretKey) : String :=
  "SecretKey(" ++ toString key.length ++ " bytes, REDACTED)"

end SecretKey

inductive KeyMaterial where
  | secret (key : SecretKey)
  | rsaPrivate (key : Rsa.PrivateKey)
  | rsaPublic (key : Rsa.PublicKey)
deriving DecidableEq

/-- Why bytes are no key of a kind, or a key has no encoding. -/
inductive MaterialError where
  | emptySecret
  | rsaPrivate
  | rsaPublic
deriving DecidableEq, Repr

def MaterialError.message : MaterialError → String
  | emptySecret => "secret key must not be empty"
  | rsaPrivate => "RSA private key: malformed or inconsistent"
  | rsaPublic => "RSA public key: malformed or inconsistent"

namespace KeyMaterial

def kind : KeyMaterial → KeyKind
  | secret _ => .secret
  | rsaPrivate _ => .rsaPrivate
  | rsaPublic _ => .rsaPublic

def ofSecret (bytes : Bytes) : KeyMaterial :=
  .secret ⟨bytes⟩

/-- The key that `bytes` is the encoding of. -/
def decode (kind : KeyKind) (bytes : Bytes) : Except MaterialError KeyMaterial :=
  match kind with
  | .secret => if bytes.isEmpty then .error .emptySecret else .ok (ofSecret bytes)
  | .rsaPrivate => match Rsa.PrivateKey.decode? bytes with
    | some key => .ok (.rsaPrivate key)
    | none => .error .rsaPrivate
  | .rsaPublic => match Rsa.PublicKey.decode? bytes with
    | some key => .ok (.rsaPublic key)
    | none => .error .rsaPublic

/-- The bytes of a secret, PKCS#8 for a private key, SubjectPublicKeyInfo for a public key. -/
def encode : KeyMaterial → Except MaterialError Bytes
  | secret key => .ok key.bytes
  | rsaPrivate key => match key.encode? with
    | some bytes => .ok bytes
    | none => .error .rsaPrivate
  | rsaPublic key => match key.encode? with
    | some bytes => .ok bytes
    | none => .error .rsaPublic

def secret? : KeyMaterial → Option Bytes
  | secret key => some key.bytes
  | _ => none

/-- The key to encrypt with; a private key lends its public half. -/
def publicKey? : KeyMaterial → Option Rsa.PublicKey
  | rsaPrivate key => some key.publicKey
  | rsaPublic key => some key
  | secret _ => none

/-- The key to decrypt with. -/
def privateKey? : KeyMaterial → Option Rsa.PrivateKey
  | rsaPrivate key => some key
  | _ => none

def describe : KeyMaterial → String
  | secret key => "KeyMaterial::" ++ key.describe
  | rsaPrivate _ => "KeyMaterial::RsaPrivate(REDACTED)"
  | rsaPublic _ => "KeyMaterial::RsaPublic"

end KeyMaterial

end CipherVault
