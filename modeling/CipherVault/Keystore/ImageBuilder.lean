import CipherVault.Entropy
import CipherVault.Keystore.Image
/-!
# Building sealed images

A builder collects keys, each with a password of its own if it is to be protected, and seals them
under the store's password.
-/

namespace CipherVault

open Json

/-- A key to be sealed.  An empty password leaves it unprotected. -/
structure PendingEntry where
  keyAlias : String
  material : KeyMaterial
  password : Option Password := none
deriving DecidableEq

structure ImageBuilder where
  /-- Rounds of key derivation for the store and for every protected entry. -/
  iterations : UInt32 := 100000
  entries : List PendingEntry := []
deriving DecidableEq

namespace ImageBuilder

/-- The random bytes of one sealing: a salt and a nonce. -/
def drawLength : Nat := saltLength + nonceLength

/-- Derivation under a salt drawn first, and the nonce drawn next. -/
def draw (builder : ImageBuilder) (entropy : Entropy) : KeyDerivation × Bytes :=
  (⟨builder.iterations, Base64.encode (entropy.bytes saltLength)⟩,
    (entropy.skip saltLength).bytes nonceLength)

def encodeEntry (builder : ImageBuilder) (entropy : Entropy) (entry : PendingEntry) :
    Except KeyError ImageEntry := do
  let encoded ← entry.material.encode.mapError KeyError.invalidMaterial
  match Password.nonEmpty entry.password with
  | none => .ok ⟨entry.keyAlias, entry.material.kind, none, Base64.encode encoded⟩
  | some password =>
    let (derivation, nonce) := builder.draw entropy
    let sealedKey ← (derivation.sealData password.bytes nonce encoded).mapError
      KeyError.imageEncoding
    .ok ⟨entry.keyAlias, entry.material.kind, some ⟨derivation, Base64.encode nonce⟩, sealedKey⟩

/-- The entries in order; an alias that stood before is refused before its key is encoded. -/
def encodeEntries (builder : ImageBuilder) :
    Entropy → (seen : List String) → List PendingEntry → Except KeyError (List ImageEntry)
  | _, _, [] => .ok []
  | entropy, seen, entry :: rest =>
    if entry.keyAlias ∈ seen then .error (.imageEncoding (.duplicateAlias entry.keyAlias))
    else do
      let first ← builder.encodeEntry entropy entry
      let more ← encodeEntries builder (entropy.skip drawLength) (entry.keyAlias :: seen) rest
      .ok (first :: more)

/-- The image file.  The first draw is the store's, the others follow the order of the entries. -/
def sealImage (builder : ImageBuilder) (entropy : Entropy) (password : Password) :
    Except KeyError Bytes :=
  if builder.iterations = 0 then .error (.imageEncoding .noIterations)
  else do
    let entries ← builder.encodeEntries (entropy.skip drawLength) [] builder.entries
    let payload := (Value.array (entries.map ImageEntry.toJson)).render
    let (derivation, nonce) := builder.draw entropy
    let sealedPayload ← (derivation.sealData password.bytes nonce payload).mapError
      KeyError.imageEncoding
    let image : SealedImage :=
      ⟨imageFormat, imageVersion, derivation, Base64.encode nonce, sealedPayload⟩
    .ok image.toJson.render

end ImageBuilder

end CipherVault
