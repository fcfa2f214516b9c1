import CipherVault.Keystore.ImageBuilder
import CipherVault.Proofs.Keystore.Image
import Mathlib.Data.List.Forall2
/-!
# What a builder seals

A builder succeeds exactly if it derives keys at all, has no alias twice and can encode every key.
The image it yields opens to entries of its keys, in their order.
-/

namespace CipherVault

open Json

/-- An entry of an image for a key to be sealed: it has the key's alias and kind, is protected
exactly if the key has a password, and opens under that password to the key's encoding. -/
structure Seals (pending : PendingEntry) (entry : ImageEntry) : Prop where
  sameAlias : entry.keyAlias = pending.keyAlias
  sameKind : entry.kind = pending.material.kind
  sameProtection : entry.isProtected = (Password.nonEmpty pending.password).isSome
  opens : ∃ encoded, pending.material.encode = .ok encoded ∧
    entry.encodedKey (Password.nonEmpty pending.password) = .ok encoded

theorem Seals.map_keyAlias {pending : List PendingEntry} {entries : List ImageEntry}
    (h : List.Forall₂ Seals pending entries) :
    entries.map (·.keyAlias) = pending.map (·.keyAlias) := by
  induction h with
  | nil => rfl
  | cons hfirst _ ih => rw [List.map_cons, List.map_cons, hfirst.sameAlias, ih]

namespace ImageBuilder

variable {builder : ImageBuilder} {entropy : Entropy}

@[simp]
theorem length_draw_nonce (builder : ImageBuilder) (entropy : Entropy) :
    (builder.draw entropy).2.length = nonceLength :=
  Entropy.length_bytes _ _

/-- Under what a builder draws, everything is sealed. -/
theorem exists_sealData_draw (hiterations : builder.iterations ≠ 0) (entropy : Entropy)
    (password data : Bytes) :
    ∃ payload, (builder.draw entropy).1.sealData password (builder.draw entropy).2 data =
      .ok payload :=
  KeyDerivation.exists_sealData hiterations rfl (length_draw_nonce builder entropy) password data

/-! ## Entries -/

theorem encodeEntry_seals {pending : PendingEntry} {entry : ImageEntry}
    (h : builder.encodeEntry entropy pending = .ok entry) : Seals pending entry := by
  simp only [encodeEntry, Outcome.bind_eq_ok, Outcome.mapError_eq_ok] at h
  obtain ⟨encoded, hencoded, h⟩ := h
  split at h
  · next hnone =>
    cases h
    refine ⟨rfl, rfl, by rw [hnone]; rfl, encoded, hencoded, ?_⟩
    rw [hnone]
    exact ImageField.decode_encode _ encoded
  · next password hpassword =>
    obtain ⟨material, hmaterial, h⟩ := Outcome.bind_eq_ok.mp h
    rw [Outcome.mapError_eq_ok] at hmaterial
    cases h
    refine ⟨rfl, rfl, by rw [hpassword]; rfl, encoded, hencoded, ?_⟩
    have hopened := (KeyDerivation.openData_eq_ok_some_iff
      (length_draw_nonce builder entropy)).mpr hmaterial
    rw [hpassword]
    simp only [ImageEntry.encodedKey, hopened, Outcome.ok_bind]

theorem exists_encodeEntry_iff (hiterations : builder.iterations ≠ 0) (entropy : Entropy)
    (pending : PendingEntry) :
    (∃ entry, builder.encodeEntry entropy pending = .ok entry) ↔
      ∃ encoded, pending.material.encode = .ok encoded := by
  constructor
  · intro h
    obtain ⟨entry, hentry⟩ := h
    obtain ⟨encoded, hencoded, -⟩ := (encodeEntry_seals hentry).opens
    exact ⟨encoded, hencoded⟩
  · intro h
    obtain ⟨encoded, hencoded⟩ := h
    simp only [encodeEntry, hencoded, Outcome.mapError_ok, Outcome.ok_bind]
    split
    · exact ⟨_, rfl⟩
    · next password _ =>
      obtain ⟨material, hmaterial⟩ :=
        exists_sealData_draw hiterations entropy password.bytes encoded
      simp only [hmaterial, Outcome.mapError_ok, Outcome.ok_bind]
      exact ⟨_, rfl⟩

theorem encodeEntries_seals {seen : List String} {pending : List PendingEntry}
    {entries : List ImageEntry} (h : builder.encodeEntries entropy seen pending = .ok entries) :
    List.Forall₂ Seals pending entries := by
  induction pending generalizing entropy seen entries with
  | nil =>
    cases h
    exact .nil
  | cons first rest ih =>
    rw [encodeEntries] at h
    split at h
    · cases h
    · obtain ⟨entry, hentry, h⟩ := Outcome.bind_eq_ok.mp h
      obtain ⟨more, hmore, h⟩ := Outcome.bind_eq_ok.mp h
      cases h
      exact .cons (encodeEntry_seals hentry) (ih hmore)

theorem encodeEntries_cons_eq_ok {seen : List String} {first : PendingEntry}
    {rest : List PendingEntry} (h : first.keyAlias ∉ seen) :
    (∃ entries, builder.encodeEntries entropy seen (first :: rest) = .ok entries) ↔
      (∃ entry, builder.encodeEntry entropy first = .ok entry) ∧
        ∃ more, builder.encodeEntries (entropy.skip drawLength) (first.keyAlias :: seen) rest =
          .ok more := by
  rw [encodeEntries, if_neg h]
  simp only [Outcome.bind_eq_ok]
  constructor
  · intro h
    obtain ⟨_, entry, hentry, more, hmore, _⟩ := h
    exact ⟨⟨entry, hentry⟩, more, hmore⟩
  · intro h
    obtain ⟨⟨entry, hentry⟩, more, hmore⟩ := h
    exact ⟨_, entry, hentry, more, hmore, rfl⟩

/-- A list of keys is encoded exactly if no alias stood before and every key has an encoding. -/
theorem exists_encodeEntries_iff (hiterations : builder.iterations ≠ 0) (entropy : Entropy)
    (seen : List String) (pending : List PendingEntry) :
    (∃ entries, builder.encodeEntries entropy seen pending = .ok entries) ↔
      ImageEntry.repeated? seen (pending.map (·.keyAlias)) = none ∧
        ∀ entry ∈ pending, ∃ encoded, entry.material.encode = .ok encoded := by
  induction pending generalizing entropy seen with
  | nil => simp [encodeEntries, ImageEntry.repeated?]
  | cons first rest ih =>
    rw [List.map_cons, ImageEntry.repeated?, List.forall_mem_cons]
    by_cases hseen : first.keyAlias ∈ seen
    · simp [encodeEntries, hseen]
    · rw [encodeEntries_cons_eq_ok hseen, exists_encodeEntry_iff hiterations, ih, if_neg hseen]
      exact and_left_comm

/-! ## Images -/

/-- An image file is the record of the sealed entries, in the format and version of this reader. -/
theorem sealImage_eq_ok_iff {password : Password} {image : Bytes} :
    builder.sealImage entropy password = .ok image ↔
      builder.iterations ≠ 0 ∧ ∃ entries payload,
        builder.encodeEntries (entropy.skip drawLength) [] builder.entries = .ok entries ∧
        (builder.draw entropy).1.sealData password.bytes (builder.draw entropy).2
          (Value.array (entries.map ImageEntry.toJson)).render = .ok payload ∧
        image = (SealedImage.mk imageFormat imageVersion (builder.draw entropy).1
          (Base64.encode (builder.draw entropy).2) payload).toJson.render := by
  rw [sealImage]
  split
  · next hzero => simp [hzero]
  · next hiterations =>
    simp only [Outcome.bind_eq_ok, Outcome.mapError_eq_ok, Except.ok.injEq, eq_comm (b := image)]
    constructor
    · intro h
      obtain ⟨entries, hentries, payload, hpayload, himage⟩ := h
      exact ⟨hiterations, entries, payload, hentries, hpayload, himage⟩
    · intro h
      obtain ⟨-, entries, payload, hentries, hpayload, himage⟩ := h
      exact ⟨entries, hentries, payload, hpayload, himage⟩

theorem exists_sealImage_iff (builder : ImageBuilder) (entropy : Entropy) (password : Password) :
    (∃ image, builder.sealImage entropy password = .ok image) ↔
      builder.iterations ≠ 0 ∧ (builder.entries.map (·.keyAlias)).Nodup ∧
        ∀ entry ∈ builder.entries, ∃ encoded, entry.material.encode = .ok encoded := by
  have hfresh : ImageEntry.repeated? [] (builder.entries.map (·.keyAlias)) = none ↔
      (builder.entries.map (·.keyAlias)).Nodup := by
    simp [ImageEntry.repeated?_eq_none_iff]
  constructor
  · intro h
    obtain ⟨image, himage⟩ := h
    obtain ⟨hiterations, entries, _, hentries, -⟩ := sealImage_eq_ok_iff.mp himage
    rw [← hfresh]
    exact ⟨hiterations, (exists_encodeEntries_iff hiterations _ _ _).mp ⟨entries, hentries⟩⟩
  · intro h
    obtain ⟨hiterations, hencodable⟩ := h
    rw [← hfresh, ← exists_encodeEntries_iff hiterations (entropy.skip drawLength)] at hencodable
    obtain ⟨entries, hentries⟩ := hencodable
    obtain ⟨payload, hpayload⟩ := exists_sealData_draw hiterations entropy password.bytes
      (Value.array (entries.map ImageEntry.toJson)).render
    exact ⟨_, sealImage_eq_ok_iff.mpr ⟨hiterations, entries, payload, hentries, hpayload, rfl⟩⟩

/-- An image opens, under the password that sealed it, to what the builder made of its keys. -/
theorem openEntries_of_encodeEntries {password : Password} {image : Bytes}
    (h : builder.sealImage entropy password = .ok image) :
    ∃ entries, builder.encodeEntries (entropy.skip drawLength) [] builder.entries = .ok entries ∧
      SealedImage.openEntries image password = .ok entries := by
  obtain ⟨-, hnodup, -⟩ := (exists_sealImage_iff builder entropy password).mp ⟨image, h⟩
  obtain ⟨-, entries, payload, hentries, hpayload, rfl⟩ := sealImage_eq_ok_iff.mp h
  have hopened := (KeyDerivation.openData_eq_ok_some_iff
    (length_draw_nonce builder entropy)).mpr hpayload
  have hformat : Text.upperAscii imageFormat = imageFormat := by decide
  have hfresh : ImageEntry.repeated? [] (entries.map (·.keyAlias)) = none := by
    rw [Seals.map_keyAlias (encodeEntries_seals hentries), ImageEntry.repeated?_eq_none_iff]
    exact ⟨fun _ _ => List.not_mem_nil, hnodup⟩
  refine ⟨entries, hentries, ?_⟩
  simp only [SealedImage.openEntries, SealedImage.read_render, Outcome.ok_bind, hformat, hopened,
    SealedImage.readEntries_render, hfresh, ne_eq, not_true_eq_false, ↓reduceIte]

/-- An image opens, under the password that sealed it, to entries of the builder's keys. -/
theorem openEntries_of_sealImage {password : Password} {image : Bytes}
    (h : builder.sealImage entropy password = .ok image) :
    ∃ entries, List.Forall₂ Seals builder.entries entries ∧
      SealedImage.openEntries image password = .ok entries := by
  obtain ⟨entries, hentries, hopened⟩ := openEntries_of_encodeEntries h
  exact ⟨entries, encodeEntries_seals hentries, hopened⟩

end ImageBuilder

end CipherVault
