import CipherVault.Proofs.Keystore.ImageBuilder
import CipherVault.Proofs.PartialOperations
import CipherVault.Proofs.TemplateIndexes
/-!
# Partial operations on images

Keys are derived in at least one round, and data is sealed and opened under a nonce of twelve bytes.
The strict runs here take the steps of sealing and opening an image or one of its entries; together
with those of transforms and templates, none of them is aborted.
-/

namespace CipherVault

open Json

/-! ## Sealed data -/

namespace KeyDerivation

variable {derivation : KeyDerivation} {password nonce data : Bytes}

def deriveStrict (derivation : KeyDerivation) (password : Bytes) : Strict ImageError Bytes :=
  if derivation.iterations = 0 then throw .noIterations
  else do
    let salt ← ImageField.salt.decode derivation.salt
    Strict.call (derivation.iterations.toNat ≠ 0)
      (.ok (Pbkdf2.derive password salt derivation.iterations.toNat))

def sealDataStrict (derivation : KeyDerivation) (password nonce data : Bytes) :
    Strict ImageError String := do
  let key ← derivation.deriveStrict password
  match Aes.Schedule.ofKey? key with
  | none => throw .sealing
  | some schedule => do
    let sealedData ← Strict.call (nonce.length = 12)
      ((Gcm.encrypt schedule nonce data).mapError fun _ => ImageError.sealing)
    pure (Base64.encode sealedData)

def openDataStrict (derivation : KeyDerivation) (password : Bytes) (nonce payload : String) :
    Strict ImageError (Option Bytes) := do
  let key ← derivation.deriveStrict password
  let nonce ← ImageField.nonce.decode nonce
  if nonce.length ≠ nonceLength then throw (.length .nonce nonceLength nonce.length)
  else
    let payload ← ImageField.payload.decode payload
    match Aes.Schedule.ofKey? key with
    | none => pure none
    | some schedule =>
      Strict.call (nonce.length = 12) (.ok (Gcm.decrypt schedule nonce payload).toOption)

theorem deriveStrict_yields (derivation : KeyDerivation) (password : Bytes) :
    (derivation.deriveStrict password).Yields (derivation.derive password) := by
  rw [deriveStrict, derive]
  split
  · exact .throw _
  · next hiterations =>
    have hrounds : derivation.iterations.toNat ≠ 0 :=
      fun hzero => hiterations (UInt32.toNat_inj.mp hzero)
    apply Strict.Yields.bind (.lift _)
    intro salt _
    exact .call hrounds _

theorem sealDataStrict_yields (hnonce : nonce.length = nonceLength) :
    (derivation.sealDataStrict password nonce data).Yields
      (derivation.sealData password nonce data) := by
  apply Strict.Yields.bind (deriveStrict_yields derivation password)
  intro key _
  cases Aes.Schedule.ofKey? key with
  | none => exact .throw _
  | some schedule =>
    obtain ⟨sealedData, hsealed⟩ := Gcm.exists_encrypt hnonce schedule data
    simp only [hsealed]
    apply Strict.Yields.ok_bind (.call hnonce _)
    exact .pure _

theorem openDataStrict_yields (derivation : KeyDerivation) (password : Bytes)
    (nonce payload : String) :
    (derivation.openDataStrict password nonce payload).Yields
      (derivation.openData password nonce payload) := by
  apply Strict.Yields.bind (deriveStrict_yields derivation password)
  intro key _
  apply Strict.Yields.bind (.lift _)
  intro bs _
  split
  · exact .throw _
  · next hlength =>
    rw [ne_eq, Decidable.not_not] at hlength
    apply Strict.Yields.bind (.lift _)
    intro sealedData _
    cases Aes.Schedule.ofKey? key with
    | none => exact .pure _
    | some schedule => exact .call hlength _

end KeyDerivation

/-! ## Entries and images -/

def ImageEntry.encodedKeyStrict (entry : ImageEntry) (password : Option Password) :
    Strict ImageError Bytes :=
  match entry.protection, password with
  | some protection, some password => do
    match ← protection.derivation.openDataStrict password.bytes protection.nonce entry.material with
    | some bytes => pure bytes
    | none => throw (.keyPassword entry.keyAlias)
  | some _, none => throw (.keyPassword entry.keyAlias)
  | none, _ => ImageField.material.decode entry.material

theorem ImageEntry.encodedKeyStrict_yields (entry : ImageEntry) (password : Option Password) :
    (entry.encodedKeyStrict password).Yields (entry.encodedKey password) := by
  rw [encodedKeyStrict.eq_def, encodedKey.eq_def]
  cases entry.protection with
  | none => exact .lift _
  | some protection =>
    cases password with
    | none => exact .throw _
    | some password =>
      apply Strict.Yields.bind (KeyDerivation.openDataStrict_yields ..)
      intro opened _
      cases opened with
      | none => exact .throw _
      | some bytes => exact .pure _

def SealedImage.openEntriesStrict (bytes : Bytes) (password : Password) :
    Strict ImageError (List ImageEntry) := do
  let image ← read bytes
  if Text.upperAscii image.format ≠ imageFormat then throw (.format image.format)
  else if image.version ≠ imageVersion then throw (.version image.version.toNat)
  else
    match ← image.derivation.openDataStrict password.bytes image.nonce image.payload with
    | none => throw .storePassword
    | some payload => do
      let entries ← readEntries payload
      match ImageEntry.repeated? [] (entries.map (·.keyAlias)) with
      | some keyAlias => throw (.duplicateAlias keyAlias)
      | none => pure entries

theorem SealedImage.openEntriesStrict_yields (bytes : Bytes) (password : Password) :
    (openEntriesStrict bytes password).Yields (openEntries bytes password) := by
  apply Strict.Yields.bind (.lift _)
  intro image _
  split
  · exact .throw _
  split
  · exact .throw _
  apply Strict.Yields.bind (KeyDerivation.openDataStrict_yields ..)
  intro opened _
  cases opened with
  | none => exact .throw _
  | some payload =>
    apply Strict.Yields.bind (.lift _)
    intro entries _
    cases ImageEntry.repeated? [] (entries.map (·.keyAlias)) with
    | some keyAlias => exact .throw _
    | none => exact .pure _

namespace ImageBuilder

def encodeEntryStrict (builder : ImageBuilder) (entropy : Entropy) (entry : PendingEntry) :
    Strict KeyError ImageEntry := do
  let encoded ← entry.material.encode.mapError KeyError.invalidMaterial
  match Password.nonEmpty entry.password with
  | none => pure ⟨entry.keyAlias, entry.material.kind, none, Base64.encode encoded⟩
  | some password => do
    let (derivation, nonce) := builder.draw entropy
    let sealedKey ← (derivation.sealDataStrict password.bytes nonce encoded).adapt
      KeyError.imageEncoding
    pure ⟨entry.keyAlias, entry.material.kind, some ⟨derivation, Base64.encode nonce⟩, sealedKey⟩

def encodeEntriesStrict (builder : ImageBuilder) :
    Entropy → (seen : List String) → List PendingEntry → Strict KeyError (List ImageEntry)
  | _, _, [] => pure []
  | entropy, seen, entry :: rest =>
    if entry.keyAlias ∈ seen then throw (.imageEncoding (.duplicateAlias entry.keyAlias))
    else do
      let first ← builder.encodeEntryStrict entropy entry
      let more ← encodeEntriesStrict builder (entropy.skip drawLength) (entry.keyAlias :: seen) rest
      pure (first :: more)

def sealImageStrict (builder : ImageBuilder) (entropy : Entropy) (password : Password) :
    Strict KeyError Bytes :=
  if builder.iterations = 0 then throw (.imageEncoding .noIterations)
  else do
    let entries ← builder.encodeEntriesStrict (entropy.skip drawLength) [] builder.entries
    let payload := (Value.array (entries.map ImageEntry.toJson)).render
    let (derivation, nonce) := builder.draw entropy
    let sealedPayload ← (derivation.sealDataStrict password.bytes nonce payload).adapt
      KeyError.imageEncoding
    let image : SealedImage :=
      ⟨imageFormat, imageVersion, derivation, Base64.encode nonce, sealedPayload⟩
    pure image.toJson.render

variable {builder : ImageBuilder} {entropy : Entropy}

theorem sealDataStrict_draw_yields (builder : ImageBuilder) (entropy : Entropy)
    (password data : Bytes) :
    Strict.Yields
      (((builder.draw entropy).1.sealDataStrict password (builder.draw entropy).2 data).adapt
        KeyError.imageEncoding)
      (((builder.draw entropy).1.sealData password (builder.draw entropy).2 data).mapError
        KeyError.imageEncoding) := by
  have hnonce := length_draw_nonce builder entropy
  exact .adapt (KeyDerivation.sealDataStrict_yields hnonce) _

theorem encodeEntryStrict_yields (builder : ImageBuilder) (entropy : Entropy)
    (entry : PendingEntry) :
    (builder.encodeEntryStrict entropy entry).Yields (builder.encodeEntry entropy entry) := by
  apply Strict.Yields.bind (.lift _)
  intro encoded _
  cases Password.nonEmpty entry.password with
  | none => exact .pure _
  | some password =>
    apply Strict.Yields.bind (sealDataStrict_draw_yields builder entropy password.bytes encoded)
    intro sealedKey _
    exact .pure _

theorem encodeEntriesStrict_yields (builder : ImageBuilder) (entropy : Entropy)
    (seen : List String) (pending : List PendingEntry) :
    (builder.encodeEntriesStrict entropy seen pending).Yields
      (builder.encodeEntries entropy seen pending) := by
  induction pending generalizing entropy seen with
  | nil => exact .pure _
  | cons first rest ih =>
    rw [encodeEntriesStrict, encodeEntries]
    split
    · exact .throw _
    · apply Strict.Yields.bind (encodeEntryStrict_yields builder entropy first)
      intro entry _
      apply Strict.Yields.bind (ih (entropy.skip drawLength) (first.keyAlias :: seen))
      intro more _
      exact .pure _

theorem sealImageStrict_yields (builder : ImageBuilder) (entropy : Entropy) (password : Password) :
    (builder.sealImageStrict entropy password).Yields (builder.sealImage entropy password) := by
  rw [sealImageStrict, sealImage]
  split
  · exact .throw _
  · apply Strict.Yields.bind
      (encodeEntriesStrict_yields builder (entropy.skip drawLength) [] builder.entries)
    intro entries _
    apply Strict.Yields.bind (sealDataStrict_draw_yields builder entropy password.bytes
      (Value.array (entries.map ImageEntry.toJson)).render)
    intro sealedPayload _
    exact .pure _

end ImageBuilder

/-- Nothing aborts a strict run: not transform, key, vector, plaintext or payload, not the bytes of
an image and a password, not the keys that are sealed, not a text that is scanned for a template.
Each yields what the run that it follows yields, and no transform reports a missing vector. -/
theorem strict_runs_are_not_aborted :
    (∀ (transform : Transform) (key : KeyMaterial) (entropy : Entropy) (iv : Option Bytes)
        (data : Bytes),
      (transform.encryptStrict key entropy iv data).Yields
          (transform.encrypt key entropy iv data) ∧
        transform.encrypt key entropy iv data ≠ .error (.illegal .ivMissing)) ∧
    (∀ (transform : Transform) (key : KeyMaterial) (payload : Bytes),
      (transform.decryptStrict key payload).Yields (transform.decrypt key payload) ∧
        transform.decrypt key payload ≠ .error (.illegal .ivMissing)) ∧
    (∀ (bytes : Bytes) (password : Password),
      (SealedImage.openEntriesStrict bytes password).Yields
        (SealedImage.openEntries bytes password)) ∧
    (∀ (entry : ImageEntry) (password : Option Password),
      (entry.encodedKeyStrict password).Yields (entry.encodedKey password)) ∧
    (∀ (builder : ImageBuilder) (entropy : Entropy) (password : Password),
      (builder.sealImageStrict entropy password).Yields (builder.sealImage entropy password)) ∧
    ∀ tag text : String,
      (Template.parseStrict tag text).Yields ((Template.parse? tag text).elim (.error ()) .ok) := by
  refine ⟨?_, ?_, ?_, ?_, ?_, ?_⟩
  · intro transform key entropy iv data
    exact ⟨transform.encryptStrict_yields key entropy iv data, Transform.encrypt_ne_ivMissing⟩
  · intro transform key payload
    exact ⟨transform.decryptStrict_yields key payload, Transform.decrypt_ne_ivMissing⟩
  · intro bytes password
    exact SealedImage.openEntriesStrict_yields bytes password
  · intro entry password
    exact entry.encodedKeyStrict_yields password
  · intro builder entropy password
    exact builder.sealImageStrict_yields entropy password
  · intro tag text
    exact Template.parseStrict_yields tag text

end CipherVault
