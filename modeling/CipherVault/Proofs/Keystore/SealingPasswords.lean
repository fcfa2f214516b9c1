import CipherVault.Proofs.Keystore.ImageDefects
import CipherVault.Proofs.Keystore.LoadOrder
import CipherVault.Proofs.Keystore.PasswordBlocks
import Mathlib.Data.List.Nodup
/-!
# Which passwords open what was sealed

A sealed payload carries a tag of sixteen bytes, and a password opens the payload exactly if the tag
is the one under the key that is derived from it.  The tag alone tells passwords apart: those with
the key block of the sealing one always open what it sealed, and two keys may happen to agree on a
tag.
-/

namespace CipherVault

/-! ## Readable keys -/

/-- A public key is read again from its encoding if it is valid and not too large. -/
theorem KeyMaterial.isReadable_rsaPublic_iff {key : Rsa.PublicKey} {encoded : Bytes}
    (hencoded : key.encode? = some encoded) :
    (rsaPublic key).IsReadable ↔ key.IsValid ∧ key.modulus < Nat.pow 2 Rsa.maxPublicBits := by
  constructor
  · rintro ⟨other, found, hother, hfound⟩
    obtain rfl := eq_of_decode_encode hother hfound
    obtain ⟨read, hread, hsame⟩ := decode_rsaPublic_eq_ok_iff.mp hfound
    cases hsame
    exact (Rsa.PublicKey.decode?_eq_some_iff.mp hread).2
  · intro hkey
    have hread := Rsa.PublicKey.decode?_eq_some_iff.mpr ⟨hencoded, hkey⟩
    exact ⟨encoded, rsaPublic key, encode_rsaPublic_eq_ok_iff.mpr hencoded,
      decode_rsaPublic_eq_ok_iff.mpr ⟨key, hread, rfl⟩⟩

/-! ## Entries -/

theorem exists_split_of_forall₂ {α β : Type} {R : α → β → Prop} {before after : List α} {a : α}
    {bs : List β} (h : List.Forall₂ R (before ++ a :: after) bs) :
    ∃ front b back, bs = front ++ b :: back ∧ List.Forall₂ R before front ∧ R a b ∧
      List.Forall₂ R after back := by
  induction before generalizing bs with
  | nil =>
    obtain ⟨b, back, hpair, hback, rfl⟩ := List.forall₂_cons_left_iff.mp h
    exact ⟨[], b, back, rfl, .nil, hpair, hback⟩
  | cons first before ih =>
    obtain ⟨found, rest, hfirst, hrest, rfl⟩ := List.forall₂_cons_left_iff.mp h
    obtain ⟨front, b, back, rfl, hfront, hpair, hback⟩ := ih hrest
    exact ⟨found :: front, b, back, rfl, .cons hfirst hfront, hpair, hback⟩

namespace ImageEntry

variable {entry : ImageEntry} {identity : String} {password : Option Password}

/-- Only the entry itself is reported under its alias. -/
theorem Refuses.keyAlias_eq {keyAlias : String} {mismatch : PasswordMismatch}
    (h : entry.Refuses identity password (.badPassword keyAlias mismatch)) :
    keyAlias = entry.keyAlias := by
  cases h <;> rfl

theorem refuses_wrongPassword_iff {protection : EntryProtection} {tried : Password}
    (hprotection : entry.protection = some protection)
    (hwell : protection.derivation.WellFormed protection.nonce entry.material) :
    entry.Refuses identity (some tried) (.badPassword entry.keyAlias .wrongPassword) ↔
      ¬protection.derivation.IsAuthentic tried.bytes protection.nonce entry.material := by
  rw [← hwell.exists_isSealed_iff]
  constructor
  · intro h
    cases h with
    | wrongPassword hfound _ hmaterial =>
      obtain rfl := Option.some.inj (hfound.symm.trans hprotection)
      exact not_exists.mpr hmaterial
  · intro h
    exact .wrongPassword hprotection hwell (not_exists.mp h)

end ImageEntry

/-- The error for a password that does not fit the store is no error of an entry. -/
theorem ImageEntry.Refuses.ne_storePassword {entry : ImageEntry} {identity : String}
    {password : Option Password} {e : KeyError} (h : entry.Refuses identity password e) :
    e ≠ .invalidKeystore identity (.image .storePassword) := by
  cases h with
  | field _ hdefect => cases hdefect <;> nofun
  | _ => nofun

namespace Seals

variable {pending : PendingEntry} {entry : ImageEntry}

/-- The fields of a protected entry are in order. -/
theorem exists_protection {own : Password} (h : Seals pending entry)
    (hown : Password.nonEmpty pending.password = some own) :
    ∃ protection, entry.protection = some protection ∧
      protection.derivation.WellFormed protection.nonce entry.material := by
  obtain ⟨encoded, -, hopens⟩ := h.exists_opens
  rw [hown] at hopens
  cases hopens with
  | sealed hprotection hmaterial => exact ⟨_, hprotection, hmaterial.wellFormed⟩

end Seals

/-! ## Images -/

/-- What a builder writes is read again, and all its fields are in order. -/
theorem ImageBuilder.exists_read_of_sealImage {builder : ImageBuilder} {entropy : Entropy}
    {password : Password} {bytes : Bytes} (h : builder.sealImage entropy password = .ok bytes) :
    ∃ image, SealedImage.read bytes = .ok image ∧
      Text.upperAscii image.format = imageFormat ∧ image.version = imageVersion ∧
        image.derivation.WellFormed image.nonce image.payload := by
  obtain ⟨-, entries, payload, -, hpayload, rfl⟩ := sealImage_eq_ok_iff.mp h
  have hopened := (KeyDerivation.openData_eq_ok_some_iff
    (length_draw_nonce builder entropy)).mpr hpayload
  have hformat : Text.upperAscii imageFormat = imageFormat := by decide
  exact ⟨_, SealedImage.read_render _, hformat, rfl, KeyDerivation.wellFormed_of_openData hopened⟩

/-! ## Two keys that agree on a tag -/

namespace SampleImage

/-- The secret was chosen for this: its tag is one and the same under the passwords a and b. -/
theorem isAuthentic_b :
    protection.derivation.IsAuthentic (Password.bytes ⟨"b"⟩) protection.nonce material := by
  have hopened : ((protection.derivation.openData (Password.bytes ⟨"b"⟩) protection.nonce
      material).toOption.map Option.isSome) = some true := by
    decide +kernel
  obtain ⟨opened, hok, hsome⟩ := Option.map_eq_some_iff.mp hopened
  obtain ⟨data, rfl⟩ := Option.isSome_iff_exists.mp hsome
  have hdata := Outcome.toOption_eq_some.mp hok
  rw [← (KeyDerivation.wellFormed_of_openData hdata).exists_isSealed_iff]
  exact ⟨data, KeyDerivation.openData_eq_ok_some_iff_isSealed.mp hdata⟩

/-- A public key that is put together without a check. -/
def evenModulus : Rsa.PublicKey :=
  ⟨8388606, 257⟩

/-- The secret behind that public key. -/
def behindEvenModulus : ImageBuilder :=
  ⟨1, ⟨"j", .rsaPublic evenModulus, none⟩ :: builder.entries⟩

theorem exists_encode_evenModulus : ∃ encoded, evenModulus.encode? = some encoded :=
  Option.isSome_iff_exists.mp (by decide)

theorem not_isReadable_evenModulus : ¬(KeyMaterial.rsaPublic evenModulus).IsReadable := by
  obtain ⟨encoded, hencoded⟩ := exists_encode_evenModulus
  rw [KeyMaterial.isReadable_rsaPublic_iff hencoded]
  decide

theorem exists_image_behindEvenModulus :
    ∃ image, behindEvenModulus.sealImage zeros ⟨"store"⟩ = .ok image := by
  obtain ⟨encoded, hencoded⟩ := exists_encode_evenModulus
  rw [ImageBuilder.exists_sealImage_iff]
  refine ⟨by decide, by decide, List.forall_mem_cons.mpr ⟨⟨encoded, ?_⟩, ?_⟩⟩
  · exact KeyMaterial.encode_rsaPublic_eq_ok_iff.mpr hencoded
  · exact List.forall_mem_singleton.mpr ⟨_, rfl⟩

end SampleImage

/-! ## Loading under any passwords -/

namespace LocalStore

variable {config : LocalKeystoreConfig} {source : ImageSource} {image : Bytes}

/-- The password of an entry is at fault for the whole image just when it is for the entry, and the
entries before it unlock. -/
theorem firstRefusal_badPassword_iff {front back : List ImageEntry} {entry : ImageEntry}
    {mismatch : PasswordMismatch}
    (hnodup : ((front ++ entry :: back).map (·.keyAlias)).Nodup) :
    FirstRefusal config (front ++ entry :: back) (.badPassword entry.keyAlias mismatch) ↔
      (∀ earlier ∈ front, ∃ material,
        earlier.Unlocks (config.password? earlier.keyAlias) material) ∧
      entry.Refuses config.identity (config.password? entry.keyAlias)
        (.badPassword entry.keyAlias mismatch) := by
  constructor
  · intro h
    obtain ⟨before, refused, after, hsplit, hbefore, hrefused⟩ := h
    have hsame := hrefused.keyAlias_eq
    have haliases := congrArg (List.map (·.keyAlias)) hsplit
    simp only [List.map_append, List.map_cons, ← hsame] at haliases hnodup
    rw [List.nodup_middle, List.nodup_cons, List.mem_append, not_or] at hnodup
    obtain ⟨⟨hfront, hback⟩, -⟩ := hnodup
    obtain ⟨hmap, -⟩ := (List.append_cons_inj_of_notMem hfront hback).mp haliases
    -- equally long before the alias, the two divisions of the entries are one
    have hlength : front.length = before.length := by
      simpa only [List.length_map] using congrArg List.length hmap
    obtain ⟨rfl, htail⟩ := List.append_inj hsplit hlength
    cases htail
    exact ⟨hbefore, hrefused⟩
  · intro h
    obtain ⟨hfront, hrefused⟩ := h
    exact ⟨front, entry, back, rfl, hfront, hrefused⟩

/-- Loading fails for the password of a protected entry just when the entries before it unlock and
its tag is not the one under that password. -/
theorem load_eq_wrongPassword_iff {front back : List ImageEntry} {entry : ImageEntry}
    {protection : EntryProtection} {tried : Password}
    (htype : Text.upperAscii config.type = imageFormat)
    (hlocation : source config.location = some image)
    (hentries : SealedImage.openEntries image config.password = .ok (front ++ entry :: back))
    (hprotection : entry.protection = some protection)
    (hwell : protection.derivation.WellFormed protection.nonce entry.material)
    (htried : config.password? entry.keyAlias = some tried) :
    (load config source).outcome = .error (.badPassword entry.keyAlias .wrongPassword) ↔
      (∀ earlier ∈ front, ∃ material,
        earlier.Unlocks (config.password? earlier.keyAlias) material) ∧
      ¬protection.derivation.IsAuthentic tried.bytes protection.nonce entry.material := by
  rw [load_eq_error_iff htype hlocation hentries,
    firstRefusal_badPassword_iff (SealedImage.nodup_of_openEntries hentries), htried,
    ImageEntry.refuses_wrongPassword_iff hprotection hwell]

/-- Loading fails for the password of the store just when the image does not open under it. -/
theorem load_eq_storePassword_iff (htype : Text.upperAscii config.type = imageFormat)
    (hlocation : source config.location = some image) :
    (load config source).outcome =
        .error (.invalidKeystore config.identity (.image .storePassword)) ↔
      SealedImage.openEntries image config.password = .error .storePassword := by
  cases hopened : SealedImage.openEntries image config.password with
  | error cause =>
    rw [load_of_openEntries_error htype hlocation hopened]
    simp
  | ok entries =>
    rw [load_eq_error_iff htype hlocation hopened]
    refine iff_of_false (fun h => ?_) nofun
    obtain ⟨_, _, _, -, -, hrefused⟩ := h
    exact hrefused.ne_storePassword rfl

/-- What fails to open tells by its tag.  With a wrong password for one protected key, and the right
ones for all others and the store, loading fails for that password just when the tag of the sealed
key is not the one under the key derived from it, unless a key that its reader refuses comes first;
loading then fails for the keystore.  With any password, loading fails for the store's just when the
tag of the payload is another.  Passwords that have the key blocks of those that sealed the image
load it like them. -/
theorem opens_by_tag_alone (builder : ImageBuilder) (entropy : Entropy) (password : Password)
    (config : LocalKeystoreConfig) (source : ImageSource) (image : Bytes)
    (himage : builder.sealImage entropy password = .ok image)
    (htype : Text.upperAscii config.type = "CKS")
    (hlocation : source config.location = some image) :
    (∀ before pending after own tried, builder.entries = before ++ pending :: after →
      Password.nonEmpty pending.password = some own →
      config.password? pending.keyAlias = some tried → config.password = password →
      (∀ other ∈ before ++ after,
        config.password? other.keyAlias = Password.nonEmpty other.password) →
      ∃ entries entry protection, SealedImage.openEntries image password = .ok entries ∧
        entry ∈ entries ∧ entry.keyAlias = pending.keyAlias ∧
        entry.protection = some protection ∧
        ((load config source).outcome = .error (.badPassword pending.keyAlias .wrongPassword) ↔
          (∀ earlier ∈ before, earlier.material.IsReadable) ∧
          ¬protection.derivation.IsAuthentic tried.bytes protection.nonce entry.material) ∧
        ((∃ earlier ∈ before, ¬earlier.material.IsReadable) → ∃ fault,
          (load config source).outcome = .error (.invalidKeystore config.identity fault))) ∧
    (∃ found, SealedImage.read image = .ok found ∧
      ((load config source).outcome =
          .error (.invalidKeystore config.identity (.image .storePassword)) ↔
        ¬found.derivation.IsAuthentic config.password.bytes found.nonce found.payload)) ∧
    (config.password.keyBlock = password.keyBlock →
      (∀ pending ∈ builder.entries, (config.password? pending.keyAlias).map Password.keyBlock =
        (Password.nonEmpty pending.password).map Password.keyBlock) →
      (∀ pending ∈ builder.entries, pending.material.IsReadable) →
      ∃ store, (load config source).outcome = .ok store ∧
        ∀ pending ∈ builder.entries,
          (store.find? pending.keyAlias).map (·.material) = some pending.material) := by
  refine ⟨?_, ?_, ?_⟩
  · rintro before pending after own tried hbuilder hown htried rfl hothers
    obtain ⟨entries, hseals, hentries⟩ := ImageBuilder.openEntries_of_sealImage himage
    rw [hbuilder] at hseals
    obtain ⟨front, entry, back, rfl, hfront, hpair, -⟩ := exists_split_of_forall₂ hseals
    obtain ⟨protection, hprotection, hwell⟩ := hpair.exists_protection hown
    have hown : ∀ other ∈ before,
        config.password? other.keyAlias = Password.nonEmpty other.password :=
      fun other hmem => hothers other (List.mem_append_left _ hmem)
    refine ⟨_, entry, protection, hentries, List.mem_append_right _ List.mem_cons_self,
      hpair.sameAlias, hprotection, ?_, fun hunreadable => ?_⟩
    · rw [← hpair.sameAlias] at htried ⊢
      rw [load_eq_wrongPassword_iff htype hlocation hentries hprotection hwell htried,
        Seals.forall_unlocks_iff hfront hown]
    · obtain ⟨earlier, hmem, hearlier⟩ := hunreadable
      exact load_of_not_isReadable htype hlocation hentries hfront hown
        fun hall => hearlier (hall earlier hmem)
  · obtain ⟨found, hread, hformat, hversion, hwell⟩ :=
      ImageBuilder.exists_read_of_sealImage himage
    refine ⟨found, hread, ?_⟩
    rw [load_eq_storePassword_iff htype hlocation,
      SealedImage.openEntries_eq_storePassword_iff hread hformat hversion hwell]
  · intro hstore hpasswords hreadable
    exact load_of_keyBlocks himage htype hlocation hstore hpasswords hreadable

/-- Under another password with another tag the key stays closed; behind a public key with an even
modulus, which is written and not read again, it is the keystore that is reported. -/
theorem fails_by_other_tag :
    (∃ image, SampleImage.builder.sealImage SampleImage.zeros ⟨"store"⟩ = .ok image ∧
      (load (SampleImage.settings "store" "c") (fun _ => some image)).outcome =
        .error (.badPassword "k" .wrongPassword)) ∧
    ∃ image, SampleImage.behindEvenModulus.sealImage SampleImage.zeros ⟨"store"⟩ = .ok image ∧
      ∃ fault, (load (SampleImage.settings "store" "c") (fun _ => some image)).outcome =
        .error (.invalidKeystore "main" fault) := by
  constructor
  · obtain ⟨image, himage, hopened⟩ := SampleImage.exists_image
    obtain ⟨hkey, -⟩ := opens_by_tag_alone SampleImage.builder SampleImage.zeros ⟨"store"⟩
      (SampleImage.settings "store" "c") (fun _ => some image) image himage (by decide) rfl
    obtain ⟨entries, entry, protection, hentries, hmem, -, hprotection, hfails, -⟩ :=
      hkey [] _ [] ⟨"a"⟩ ⟨"c"⟩ rfl (by decide) (by decide) rfl (List.forall_mem_nil _)
    obtain rfl := Except.ok.inj (hopened.symm.trans hentries)
    obtain rfl := List.mem_singleton.mp hmem
    obtain rfl := Option.some.inj hprotection
    refine ⟨image, himage, hfails.mpr ⟨List.forall_mem_nil _, ?_⟩⟩
    exact SampleImage.wellFormed.openData_eq_ok_none_iff.mp SampleImage.openData_c
  · obtain ⟨image, himage⟩ := SampleImage.exists_image_behindEvenModulus
    obtain ⟨hkey, -⟩ := opens_by_tag_alone SampleImage.behindEvenModulus SampleImage.zeros ⟨"store"⟩
      (SampleImage.settings "store" "c") (fun _ => some image) image himage (by decide) rfl
    obtain ⟨_, _, _, -, -, -, -, -, hfails⟩ :=
      hkey [⟨"j", .rsaPublic SampleImage.evenModulus, none⟩] _ [] ⟨"a"⟩ ⟨"c"⟩ rfl (by decide)
        (by decide) rfl (List.forall_mem_singleton.mpr (by decide))
    exact ⟨image, himage, hfails ⟨_, List.mem_cons_self, SampleImage.not_isReadable_evenModulus⟩⟩

/-- A zero byte behind the password of a key or of the store changes nothing, and a password with
another key block is no wrong one if the tag is the same. -/
theorem opens_under_other_passwords :
    ∃ image, SampleImage.builder.sealImage SampleImage.zeros ⟨"store"⟩ = .ok image ∧
      (∃ store, (load (SampleImage.settings "store" "a\x00") (fun _ => some image)).outcome =
        .ok store) ∧
      (∃ store, (load (SampleImage.settings "store\x00" "a") (fun _ => some image)).outcome =
        .ok store) ∧
      Password.keyBlock ⟨"b"⟩ ≠ Password.keyBlock ⟨"a"⟩ ∧
      (load (SampleImage.settings "store" "b") (fun _ => some image)).outcome ≠
        .error (.badPassword "k" .wrongPassword) := by
  obtain ⟨image, himage, hopened⟩ := SampleImage.exists_image
  have hloads : ∀ store key, Password.keyBlock ⟨store⟩ = Password.keyBlock ⟨"store"⟩ →
      (SampleImage.settings store key).password? "k" = some ⟨key⟩ →
      Password.keyBlock ⟨key⟩ = Password.keyBlock ⟨"a"⟩ →
      ∃ found,
        (load (SampleImage.settings store key) (fun _ => some image)).outcome = .ok found := by
    intro store key hstore hpassword hkey
    have htype : Text.upperAscii (SampleImage.settings store key).type = imageFormat :=
      (by decide : Text.upperAscii "CKS" = imageFormat)
    have hblock : ((SampleImage.settings store key).password? "k").map Password.keyBlock =
        some (Password.keyBlock ⟨"a"⟩) := by
      rw [hpassword, Option.map_some, hkey]
    obtain ⟨found, hfound, -⟩ := @load_of_keyBlocks (SampleImage.settings store key) _ _ _
      (fun _ => some image) image himage htype rfl hstore (List.forall_mem_singleton.mpr hblock)
      (List.forall_mem_singleton.mpr ⟨_, _, rfl, rfl⟩)
    exact ⟨found, hfound⟩
  have hzero : Password.keyBlock ⟨"a\x00"⟩ = Password.keyBlock ⟨"a"⟩ :=
    Password.keyBlock_of_zeros (by decide : _ = Password.bytes ⟨"a"⟩ ++ List.replicate 1 0)
      (by decide)
  have hstoreZero : Password.keyBlock ⟨"store\x00"⟩ = Password.keyBlock ⟨"store"⟩ :=
    Password.keyBlock_of_zeros (by decide : _ = Password.bytes ⟨"store"⟩ ++ List.replicate 1 0)
      (by decide)
  have hfails := @load_eq_wrongPassword_iff (SampleImage.settings "store" "b") (fun _ => some image)
    image [] [] ⟨"k", .secret, some SampleImage.protection, SampleImage.material⟩
    SampleImage.protection ⟨"b"⟩ (by decide) rfl hopened rfl SampleImage.wellFormed (by decide)
  exact ⟨image, himage, hloads _ _ rfl (by decide) hzero, hloads _ _ hstoreZero (by decide) rfl,
    by decide +kernel, fun h => (hfails.mp h).2 SampleImage.isAuthentic_b⟩

end LocalStore

end CipherVault
