import CipherVault.Proofs.Keystore.Load
/-!
# Passwords count by their key blocks

A password becomes a sealing key through a keyed hash, which takes it as one block: filled up with
zero bytes if it is short, hashed if it is long.  Two passwords with one block, such as a short one
with and without a zero byte at its end, open the same data, entries and images.
-/

namespace CipherVault

/-- Zero bytes at the end of a key are those that its block is filled up with. -/
theorem Hmac.keyBlock_append_zeros {key : Bytes} {count : Nat} (h : key.length + count ≤ 64) :
    keyBlock (key ++ List.replicate count 0) = keyBlock key := by
  have hlong : (key ++ List.replicate count (0 : Byte)).length = key.length + count := by
    rw [List.length_append, List.length_replicate]
  have hshort : key.length ≤ 64 := by omega
  have hfill : count + (64 - (key.length + count)) = 64 - key.length := by omega
  rw [keyBlock, keyBlock, if_pos (hlong ▸ h), if_pos hshort, hlong, List.append_assoc,
    List.replicate_append_replicate, hfill]

/-- What a password is to the keyed hash. -/
def Password.keyBlock (password : Password) : Bytes :=
  Hmac.keyBlock password.bytes

/-- A short password and the same with zero bytes behind it have one key block. -/
theorem Password.keyBlock_of_zeros {password filled : Password} {count : Nat}
    (hfilled : filled.bytes = password.bytes ++ List.replicate count 0)
    (hshort : password.bytes.length + count ≤ 64) : filled.keyBlock = password.keyBlock := by
  rw [keyBlock, keyBlock, hfilled]
  exact Hmac.keyBlock_append_zeros hshort

theorem Pbkdf2.derive_of_keyBlock {left right : Bytes}
    (h : Hmac.keyBlock left = Hmac.keyBlock right) (salt : Bytes) (iterations : Nat) :
    derive left salt iterations = derive right salt iterations := by
  rw [derive, derive, Hmac.Key.ofBytes, Hmac.Key.ofBytes, h]

namespace KeyDerivation

variable {left right : Bytes}

theorem derive_of_keyBlock (h : Hmac.keyBlock left = Hmac.keyBlock right)
    (derivation : KeyDerivation) : derivation.derive left = derivation.derive right := by
  simp only [derive, Pbkdf2.derive_of_keyBlock h]

theorem sealData_of_keyBlock (h : Hmac.keyBlock left = Hmac.keyBlock right)
    (derivation : KeyDerivation) (nonce data : Bytes) :
    derivation.sealData left nonce data = derivation.sealData right nonce data := by
  rw [sealData, sealData, derive_of_keyBlock h]

theorem openData_of_keyBlock (h : Hmac.keyBlock left = Hmac.keyBlock right)
    (derivation : KeyDerivation) (nonce payload : String) :
    derivation.openData left nonce payload = derivation.openData right nonce payload := by
  rw [openData, openData, derive_of_keyBlock h]

end KeyDerivation

theorem SealedImage.openEntries_of_keyBlock {left right : Password}
    (h : left.keyBlock = right.keyBlock) (image : Bytes) :
    openEntries image left = openEntries image right := by
  simp only [openEntries, KeyDerivation.openData_of_keyBlock h]

namespace ImageEntry

variable {entry : ImageEntry} {left right : Option Password}

theorem Opens.of_keyBlock {encoded : Bytes} (hopens : entry.Opens left encoded)
    (h : left.map Password.keyBlock = right.map Password.keyBlock) :
    entry.Opens right encoded := by
  cases hopens with
  | plain hprotection hmaterial =>
    rw [Option.map_none, eq_comm, Option.map_eq_none_iff] at h
    subst h
    exact .plain hprotection hmaterial
  | sealed hprotection hmaterial =>
    obtain ⟨password, rfl, hblock⟩ := Option.map_eq_some_iff.mp h.symm
    obtain ⟨bs, hnonce, hlength, hsealed⟩ := hmaterial
    rw [← KeyDerivation.sealData_of_keyBlock hblock] at hsealed
    exact .sealed hprotection ⟨bs, hnonce, hlength, hsealed⟩

theorem Unlocks.of_keyBlock {material : KeyMaterial} (hunlocks : entry.Unlocks left material)
    (h : left.map Password.keyBlock = right.map Password.keyBlock) :
    entry.Unlocks right material := by
  obtain ⟨encoded, hopens, hkey⟩ := hunlocks
  exact ⟨encoded, hopens.of_keyBlock h, hkey⟩

end ImageEntry

/-- Under passwords that have the key blocks of the builder's, an image of keys that their readers
accept is loaded with the builder's keys. -/
theorem LocalStore.load_of_keyBlocks {config : LocalKeystoreConfig} {builder : ImageBuilder}
    {entropy : Entropy} {password : Password} {source : ImageSource} {image : Bytes}
    (himage : builder.sealImage entropy password = .ok image)
    (htype : Text.upperAscii config.type = imageFormat)
    (hlocation : source config.location = some image)
    (hstore : config.password.keyBlock = password.keyBlock)
    (hpasswords : ∀ pending ∈ builder.entries,
      (config.password? pending.keyAlias).map Password.keyBlock =
        (Password.nonEmpty pending.password).map Password.keyBlock)
    (hreadable : ∀ pending ∈ builder.entries, pending.material.IsReadable) :
    ∃ store, (load config source).outcome = .ok store ∧
      ∀ pending ∈ builder.entries,
        (store.find? pending.keyAlias).map (·.material) = some pending.material := by
  obtain ⟨entries, hseals, hentries⟩ := ImageBuilder.openEntries_of_sealImage himage
  have hall : ∀ entry ∈ entries, ∃ material,
      entry.Unlocks (config.password? entry.keyAlias) material := by
    intro entry hentry
    obtain ⟨pending, hmem, hpair⟩ := exists_related_of_mem hseals hentry
    have hown := hpair.unlocks_iff.mpr ⟨hreadable pending hmem, rfl⟩
    rw [hpair.sameAlias]
    exact ⟨_, hown.of_keyBlock (hpasswords pending hmem).symm⟩
  rw [← SealedImage.openEntries_of_keyBlock hstore] at hentries
  obtain ⟨keys, hkeys, -, hheld⟩ := load_of_unlocks htype hlocation hentries hall
  refine ⟨_, hkeys, fun pending hmem => ?_⟩
  obtain ⟨entry, hentry, hpair⟩ := exists_related_of_mem hseals.flip hmem
  obtain ⟨material, hunlock, hkey⟩ := hheld entry hentry
  rw [hpair.sameAlias] at hunlock hkey
  obtain ⟨-, rfl⟩ := hpair.unlocks_iff.mp (hunlock.of_keyBlock (hpasswords pending hmem))
  rw [find?, hkey]
  rfl

end CipherVault
