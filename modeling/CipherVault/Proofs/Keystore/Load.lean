import CipherVault.Proofs.Key.Material
import CipherVault.Proofs.Keystore.ImageBuilder
import CipherVault.Proofs.Keystore.UnlockAll
/-!
# Loading undoes sealing

Under the passwords of the builder every entry of its image unlocks, unless the reader of keys
refuses the encoding.  A keystore that loads holds the builder's keys under the builder's aliases.
-/

namespace CipherVault

theorem exists_related_of_mem {α β : Type} {R : α → β → Prop} {as : List α} {bs : List β}
    (h : List.Forall₂ R as bs) {b : β} (hmem : b ∈ bs) : ∃ a ∈ as, R a b := by
  induction h with
  | nil => cases hmem
  | @cons first _ _ _ hfirst _ ih =>
    rcases List.mem_cons.mp hmem with rfl | hmem
    · exact ⟨first, List.mem_cons_self, hfirst⟩
    · obtain ⟨found, hfound, hrelated⟩ := ih hmem
      exact ⟨found, List.mem_cons_of_mem _ hfound, hrelated⟩

/-- Whether a reader of keys accepts the encoding of a key. -/
def KeyMaterial.IsReadable (material : KeyMaterial) : Prop :=
  ∃ encoded found, material.encode = .ok encoded ∧ decode material.kind encoded = .ok found

theorem KeyMaterial.isReadable_ofSecret_iff {secret : Bytes} :
    (ofSecret secret).IsReadable ↔ secret ≠ [] := by
  constructor
  · rintro ⟨encoded, found, hencoded, hfound⟩ rfl
    cases hencoded
    cases hfound
  · intro hne
    exact ⟨secret, .ofSecret secret, rfl, if_neg (by simpa using hne)⟩

namespace Seals

variable {pending : PendingEntry} {entry : ImageEntry}

theorem exists_opens (h : Seals pending entry) :
    ∃ encoded, pending.material.encode = .ok encoded ∧
      entry.Opens (Password.nonEmpty pending.password) encoded := by
  obtain ⟨encoded, hencoded, hopens⟩ := h.opens
  exact ⟨encoded, hencoded, ImageEntry.opens_of_encodedKey h.sameProtection hopens⟩

/-- Under the password of the key that was sealed, an entry unlocks to that key exactly if its
encoding is accepted. -/
theorem unlocks_iff (h : Seals pending entry) {material : KeyMaterial} :
    entry.Unlocks (Password.nonEmpty pending.password) material ↔
      pending.material.IsReadable ∧ material = pending.material := by
  obtain ⟨encoded, hencoded, hopens⟩ := h.exists_opens
  constructor
  · intro hunlocks
    obtain ⟨other, hother, hkey⟩ := hunlocks
    obtain rfl := hopens.unique hother
    rw [h.sameKind] at hkey
    exact ⟨⟨encoded, material, hencoded, hkey⟩, KeyMaterial.eq_of_decode_encode hencoded hkey⟩
  · intro hreadable
    obtain ⟨⟨other, found, hother, hkey⟩, rfl⟩ := hreadable
    obtain rfl := Except.ok.inj (hencoded.symm.trans hother)
    obtain rfl := KeyMaterial.eq_of_decode_encode hencoded hkey
    exact ⟨encoded, hopens, by rw [h.sameKind]; exact hkey⟩

/-- If it is refused, then not for its password. -/
theorem refuses (h : Seals pending entry) {identity : String} {e : KeyError}
    (hrefuses : entry.Refuses identity (Password.nonEmpty pending.password) e) :
    ∃ fault, e = .invalidKeystore identity fault := by
  obtain ⟨encoded, -, hopens⟩ := h.exists_opens
  obtain ⟨cause, -, rfl⟩ := hrefuses.of_opens hopens
  exact ⟨_, rfl⟩

section OwnPasswords

variable {config : LocalKeystoreConfig} {sealed : List PendingEntry} {entries : List ImageEntry}
  (hseals : List.Forall₂ Seals sealed entries)
  (hpasswords : ∀ pending ∈ sealed,
    config.password? pending.keyAlias = Password.nonEmpty pending.password)

include hseals hpasswords

/-- Under the passwords that sealed them, entries unlock just when their keys are readable. -/
theorem forall_unlocks_iff :
    (∀ entry ∈ entries, ∃ material,
        entry.Unlocks (config.password? entry.keyAlias) material) ↔
      ∀ pending ∈ sealed, pending.material.IsReadable := by
  induction hseals with
  | nil => simp
  | @cons pending entry _ _ hpair _ ih =>
    obtain ⟨hown, hrest⟩ := List.forall_mem_cons.mp hpasswords
    rw [List.forall_mem_cons, List.forall_mem_cons, ih hrest, hpair.sameAlias, hown]
    simp only [hpair.unlocks_iff, exists_and_left, exists_eq, and_true]

/-- None of them is refused for its password. -/
theorem invalidKeystore_of_firstRefusal {e : KeyError}
    (h : LocalStore.FirstRefusal config entries e) :
    ∃ fault, e = .invalidKeystore config.identity fault := by
  obtain ⟨before, entry, after, rfl, -, hentry⟩ := h
  obtain ⟨pending, hmem, hpair⟩ := exists_related_of_mem hseals
    (List.mem_append_right before List.mem_cons_self)
  rw [hpair.sameAlias, hpasswords pending hmem] at hentry
  exact hpair.refuses hentry

end OwnPasswords

end Seals

namespace LocalStore

variable {config : LocalKeystoreConfig}

/-- A configuration gives every key the password that it was sealed with. -/
def HasPasswords (config : LocalKeystoreConfig) (pending : List PendingEntry) : Prop :=
  ∀ entry ∈ pending, Password.nonEmpty ((config.keyConfig? entry.keyAlias).bind (·.password)) =
    Password.nonEmpty entry.password

/-- Loading fails for the keystore if one of the first keys is not readable, whatever follows the
entries of these keys. -/
theorem load_of_not_isReadable {source : ImageSource} {image : Bytes} {sealed : List PendingEntry}
    {front rest : List ImageEntry} (htype : Text.upperAscii config.type = imageFormat)
    (hlocation : source config.location = some image)
    (hentries : SealedImage.openEntries image config.password = .ok (front ++ rest))
    (hseals : List.Forall₂ Seals sealed front)
    (hpasswords : ∀ pending ∈ sealed,
      config.password? pending.keyAlias = Password.nonEmpty pending.password)
    (h : ¬∀ pending ∈ sealed, pending.material.IsReadable) :
    ∃ fault, (load config source).outcome = .error (.invalidKeystore config.identity fault) := by
  obtain hunlocks | ⟨e, hrefusal⟩ := unlocks_or_firstRefusal config front
  · exact absurd ((Seals.forall_unlocks_iff hseals hpasswords).mp hunlocks) h
  · obtain ⟨fault, rfl⟩ := Seals.invalidKeystore_of_firstRefusal hseals hpasswords hrefusal
    exact ⟨fault, load_of_firstRefusal htype hlocation hentries (hrefusal.append rest)⟩

/-- An image is loaded under the passwords of its builder exactly if every encoding is accepted;
else loading fails for the configuration. -/
theorem load_of_sealImage {builder : ImageBuilder} {entropy : Entropy} {source : ImageSource}
    {image : Bytes} (himage : builder.sealImage entropy config.password = .ok image)
    (htype : Text.upperAscii config.type = imageFormat)
    (hlocation : source config.location = some image)
    (hpasswords : HasPasswords config builder.entries) :
    ((∀ entry ∈ builder.entries, entry.material.IsReadable) ∧ ∃ store,
      (load config source).outcome = .ok store ∧
        (∀ entry ∈ builder.entries,
          (store.find? entry.keyAlias).map (·.material) = some entry.material) ∧
        ∀ keyAlias ∈ store.keys.aliases, keyAlias ∈ builder.entries.map (·.keyAlias)) ∨
    ((∃ entry ∈ builder.entries, ¬entry.material.IsReadable) ∧ ∃ fault,
      (load config source).outcome = .error (.invalidKeystore config.identity fault)) := by
  obtain ⟨entries, hseals, hentries⟩ := ImageBuilder.openEntries_of_sealImage himage
  have hown : ∀ pending ∈ builder.entries,
      config.password? pending.keyAlias = Password.nonEmpty pending.password := by
    intro pending hmem
    rw [LocalKeystoreConfig.password?, ← config.keyConfig?_eq_lastKeyConfig?]
    exact hpasswords pending hmem
  by_cases hreadable : ∀ entry ∈ builder.entries, entry.material.IsReadable
  · have hunlocks := (Seals.forall_unlocks_iff hseals hown).mpr hreadable
    obtain ⟨keys, hkeys, haliases, hheld⟩ := load_of_unlocks htype hlocation hentries hunlocks
    refine .inl ⟨hreadable, _, hkeys, ?_, ?_⟩
    · intro pending hmem
      obtain ⟨entry, hentry, hpair⟩ := exists_related_of_mem hseals.flip hmem
      obtain ⟨material, hunlock, hkey⟩ := hheld entry hentry
      rw [hpair.sameAlias, hown pending hmem] at hunlock
      obtain ⟨-, rfl⟩ := hpair.unlocks_iff.mp hunlock
      rw [find?, ← hpair.sameAlias, hkey]
      rfl
    · intro keyAlias hmem
      rw [← Seals.map_keyAlias hseals]
      exact (haliases keyAlias).mp hmem
  · rw [← List.append_nil entries] at hentries
    have hfails := load_of_not_isReadable htype hlocation hentries hseals hown hreadable
    simp only [not_forall] at hreadable
    obtain ⟨entry, hmem, hunreadable⟩ := hreadable
    exact .inr ⟨⟨entry, hmem, hunreadable⟩, hfails⟩

theorem exists_load_of_isReadable {builder : ImageBuilder} {entropy : Entropy}
    {source : ImageSource} {image : Bytes}
    (himage : builder.sealImage entropy config.password = .ok image)
    (htype : Text.upperAscii config.type = imageFormat)
    (hlocation : source config.location = some image)
    (hpasswords : HasPasswords config builder.entries)
    (hreadable : ∀ entry ∈ builder.entries, entry.material.IsReadable) :
    ∃ store, (load config source).outcome = .ok store := by
  obtain ⟨-, store, hstore, -⟩ | ⟨⟨entry, hmem, hunreadable⟩, -⟩ :=
    load_of_sealImage himage htype hlocation hpasswords
  · exact ⟨store, hstore⟩
  · exact absurd (hreadable entry hmem) hunreadable

end LocalStore

end CipherVault
