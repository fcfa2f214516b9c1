import CipherVault.Aead.Gcm
import CipherVault.Base64
import CipherVault.Hash.Hmac
import CipherVault.Json.Reader
import CipherVault.Json.Record
import CipherVault.Key.Error
import CipherVault.Text
/-!
# Sealed keystore images

An image is a JSON record whose payload is the sealed list of its entries.  Sealing is AES-256 in
Galois counter mode under a key derived from a password; an entry with a password of its own is
sealed a second time.  Opening checks one condition after the other and names the first that fails.
-/

namespace CipherVault

open Json

/-- How a sealing key is derived from a password. -/
structure KeyDerivation where
  iterations : UInt32
  /-- In base64. -/
  salt : String
deriving DecidableEq, Repr

/-- What opens a protected entry besides its password. -/
structure EntryProtection where
  derivation : KeyDerivation
  /-- In base64. -/
  nonce : String
deriving DecidableEq, Repr

/-- One key of an image; the material is base64 of the key's encoding, sealed if protected. -/
structure ImageEntry where
  keyAlias : String
  kind : KeyKind
  protection : Option EntryProtection
  material : String
deriving DecidableEq, Repr

structure SealedImage where
  format : String
  version : UInt32
  derivation : KeyDerivation
  nonce : String
  payload : String
deriving DecidableEq, Repr

/-- The type that a configuration and an image name, in any letter case. -/
def imageFormat : String := "CKS"

def imageVersion : UInt32 := 1

def saltLength : Nat := 16

namespace KeyDerivation

def toJson (derivation : KeyDerivation) : Value :=
  .ofMembers [("iterations", .ofNat derivation.iterations.toNat),
    ("salt", .ofString derivation.salt)]

def ofJson? (value : Value) : Option KeyDerivation := do
  match ← value.fields? ["iterations", "salt"] with
  | [iterations, salt] => do
    let iterations ← Value.required? iterations Value.natural32?
    let salt ← Value.required? salt Value.string?
    some ⟨iterations, salt⟩
  | _ => none

end KeyDerivation

namespace EntryProtection

def toJson (protection : EntryProtection) : Value :=
  .ofMembers [("kdf", protection.derivation.toJson), ("nonce", .ofString protection.nonce)]

def ofJson? (value : Value) : Option EntryProtection := do
  match ← value.fields? ["kdf", "nonce"] with
  | [derivation, nonce] => do
    let derivation ← Value.required? derivation KeyDerivation.ofJson?
    let nonce ← Value.required? nonce Value.string?
    some ⟨derivation, nonce⟩
  | _ => none

end EntryProtection

namespace KeyKind

/-- A kind is written as its name, or as an object of that name and null. -/
def ofJson? : Value → Option KeyKind
  | .string raw => (text? raw).bind ofName?
  | .object [(name, .null)] => (text? name).bind ofName?
  | _ => none

end KeyKind

namespace ImageEntry

def toJson (entry : ImageEntry) : Value :=
  .ofMembers ([("alias", .ofString entry.keyAlias), ("kind", .ofString entry.kind.name)] ++
    (match entry.protection with
      | some protection => [("protection", protection.toJson)]
      | none => []) ++
    [("material", .ofString entry.material)])

def ofJson? (value : Value) : Option ImageEntry := do
  match ← value.fields? ["alias", "kind", "protection", "material"] with
  | [keyAlias, kind, protection, material] => do
    let keyAlias ← Value.required? keyAlias Value.string?
    let kind ← Value.required? kind KeyKind.ofJson?
    let protection ← Value.defaulted? protection none (Value.optional? EntryProtection.ofJson?)
    let material ← Value.required? material Value.string?
    some ⟨keyAlias, kind, protection, material⟩
  | _ => none

end ImageEntry

namespace SealedImage

def toJson (image : SealedImage) : Value :=
  .ofMembers [("format", .ofString image.format), ("version", .ofNat image.version.toNat),
    ("kdf", image.derivation.toJson), ("nonce", .ofString image.nonce),
    ("payload", .ofString image.payload)]

def ofJson? (value : Value) : Option SealedImage := do
  match ← value.fields? ["format", "version", "kdf", "nonce", "payload"] with
  | [format, version, derivation, nonce, payload] => do
    let format ← Value.required? format Value.string?
    let version ← Value.required? version Value.natural32?
    let derivation ← Value.required? derivation KeyDerivation.ofJson?
    let nonce ← Value.required? nonce Value.string?
    let payload ← Value.required? payload Value.string?
    some ⟨format, version, derivation, nonce, payload⟩
  | _ => none

end SealedImage

/-- The bytes of a base64 field. -/
def ImageField.decode (field : ImageField) (text : String) : Except ImageError Bytes :=
  (Base64.decode text).mapError fun _ => .notBase64 field

namespace KeyDerivation

/-- The sealing key of a password. -/
def derive (derivation : KeyDerivation) (password : Bytes) : Except ImageError Bytes :=
  if derivation.iterations = 0 then .error .noIterations
  else do
    let salt ← ImageField.salt.decode derivation.salt
    .ok (Pbkdf2.derive password salt derivation.iterations.toNat)

/-- Data sealed under a password and a nonce, in base64. -/
def sealData (derivation : KeyDerivation) (password nonce data : Bytes) :
    Except ImageError String := do
  let key ← derivation.derive password
  match Aes.Schedule.ofKey? key with
  | none => .error .sealing
  | some schedule =>
    match Gcm.encrypt schedule nonce data with
    | .ok sealedData => .ok (Base64.encode sealedData)
    | .error _ => .error .sealing

/-- What a payload in base64 holds, or that the password does not open it. -/
def openData (derivation : KeyDerivation) (password : Bytes) (nonce payload : String) :
    Except ImageError (Option Bytes) := do
  let key ← derivation.derive password
  let nonce ← ImageField.nonce.decode nonce
  if nonce.length ≠ nonceLength then .error (.length .nonce nonceLength nonce.length)
  else
    let payload ← ImageField.payload.decode payload
    match Aes.Schedule.ofKey? key with
    | none => .ok none
    | some schedule => .ok (Gcm.decrypt schedule nonce payload).toOption

end KeyDerivation

namespace ImageEntry

def isProtected (entry : ImageEntry) : Bool :=
  entry.protection.isSome

/-- The encoded key of an entry, opened with the password if the entry is protected. -/
def encodedKey (entry : ImageEntry) (password : Option Password) : Except ImageError Bytes :=
  match entry.protection, password with
  | some protection, some password => do
    match ← protection.derivation.openData password.bytes protection.nonce entry.material with
    | some bytes => .ok bytes
    | none => .error (.keyPassword entry.keyAlias)
  | some _, none => .error (.keyPassword entry.keyAlias)
  | none, _ => ImageField.material.decode entry.material

/-- The first alias in `aliases` that stood before. -/
def repeated? : (seen aliases : List String) → Option String
  | _, [] => none
  | seen, keyAlias :: rest =>
    if keyAlias ∈ seen then some keyAlias else repeated? (keyAlias :: seen) rest

end ImageEntry

namespace SealedImage

/-- The image that `bytes` are the JSON text of. -/
def read (bytes : Bytes) : Except ImageError SealedImage :=
  match (read? bytes).bind ofJson? with
  | some image => .ok image
  | none => .error .notJson

def readEntries (bytes : Bytes) : Except ImageError (List ImageEntry) :=
  match (read? bytes).bind (Value.list? ImageEntry.ofJson?) with
  | some entries => .ok entries
  | none => .error .notJson

/-- The entries of an image file. -/
def openEntries (bytes : Bytes) (password : Password) : Except ImageError (List ImageEntry) := do
  let image ← read bytes
  if Text.upperAscii image.format ≠ imageFormat then .error (.format image.format)
  else if image.version ≠ imageVersion then .error (.version image.version.toNat)
  else
    match ← image.derivation.openData password.bytes image.nonce image.payload with
    | none => .error .storePassword
    | some payload => do
      let entries ← readEntries payload
      match ImageEntry.repeated? [] (entries.map (·.keyAlias)) with
      | some keyAlias => .error (.duplicateAlias keyAlias)
      | none => .ok entries

end SealedImage

end CipherVault
