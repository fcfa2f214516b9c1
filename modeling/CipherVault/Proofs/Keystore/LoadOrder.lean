import CipherVault.Proofs.Keystore.Load
/-!
# Loading is all or nothing

A keystore is loaded with every key of its image or not at all, and an image that does not load is
reported by the first of its entries that is refused.
-/

namespace CipherVault

/-! ## An image in full -/

namespace SampleImage

/-- A secret that is sealed under the password a. -/
def builder : ImageBuilder :=
  ⟨1, [⟨"k", .ofSecret [74, 216, 4, 44, 175, 185, 31, 127, 69, 182, 236, 81, 47, 193, 38, 204],
    some ⟨"a"⟩⟩]⟩

def zeros : Entropy :=
  ⟨fun _ => 0, fun _ => ⟨1, by decide⟩⟩

def protection : EntryProtection :=
  ⟨⟨1, "AAAAAAAAAAAAAAAAAAAAAA=="⟩, "AAAAAAAAAAAAAAAA"⟩

def material : String :=
  "XRWYQd93BodrFB2hlWAtjulc+OKUx+7wTQdpMbLQBmM="

def settings (store key : String) : LocalKeystoreConfig :=
  ⟨"main", "here", "CKS", ⟨store⟩, false, [⟨"k", some ⟨key⟩, none⟩]⟩

theorem exists_image :
    ∃ image, builder.sealImage zeros ⟨"store"⟩ = .ok image ∧
      SealedImage.openEntries image ⟨"store"⟩ =
        .ok [⟨"k", .secret, some protection, material⟩] := by
  have hsealed : builder.encodeEntries (zeros.skip ImageBuilder.drawLength) [] builder.entries =
      .ok [⟨"k", .secret, some protection, material⟩] :=
    Outcome.toOption_eq_some.mp (by decide +kernel)
  obtain ⟨image, himage⟩ := (ImageBuilder.exists_sealImage_iff builder zeros ⟨"store"⟩).mpr
    ⟨by decide, by decide, List.forall_mem_singleton.mpr ⟨_, rfl⟩⟩
  obtain ⟨entries, hentries, hopened⟩ := ImageBuilder.openEntries_of_encodeEntries himage
  obtain rfl := Except.ok.inj (hsealed.symm.trans hentries)
  exact ⟨image, himage, hopened⟩

theorem openData_c :
    protection.derivation.openData (Password.bytes ⟨"c"⟩) protection.nonce material = .ok none :=
  Outcome.toOption_eq_some.mp (by decide +kernel)

theorem wellFormed : protection.derivation.WellFormed protection.nonce material :=
  KeyDerivation.wellFormed_of_openData openData_c

/-! ### Two keys -/

/-- A secret with a password of its own and one without. -/
def twoKeys : ImageBuilder :=
  ⟨1, [⟨"k", .ofSecret [1, 2, 3], some ⟨"open"⟩⟩, ⟨"l", .ofSecret [4], none⟩]⟩

theorem exists_twoKeys :
    ∃ image first second, twoKeys.sealImage zeros ⟨"store"⟩ = .ok image ∧
      SealedImage.openEntries image ⟨"store"⟩ = .ok [first, second] ∧
      Seals ⟨"k", .ofSecret [1, 2, 3], some ⟨"open"⟩⟩ first ∧
      Seals ⟨"l", .ofSecret [4], none⟩ second := by
  have hencodes : ∀ entry ∈ twoKeys.entries, ∃ encoded, entry.material.encode = .ok encoded := by
    simp only [twoKeys, List.forall_mem_cons]
    exact ⟨⟨_, rfl⟩, ⟨_, rfl⟩, List.forall_mem_nil _⟩
  obtain ⟨image, himage⟩ := (ImageBuilder.exists_sealImage_iff twoKeys zeros ⟨"store"⟩).mpr
    ⟨by decide, by decide, hencodes⟩
  obtain ⟨entries, hseals, hentries⟩ := ImageBuilder.openEntries_of_sealImage himage
  obtain ⟨first, rest, hfirst, hrest, rfl⟩ := List.forall₂_cons_left_iff.mp hseals
  obtain ⟨second, rest, hsecond, hnil, rfl⟩ := List.forall₂_cons_left_iff.mp hrest
  obtain rfl := List.forall₂_nil_left_iff.mp hnil
  exact ⟨image, first, second, himage, hentries, hfirst, hsecond⟩

end SampleImage

/-! ## Loading -/

namespace LocalStore

variable {config : LocalKeystoreConfig} {source : ImageSource} {image : Bytes}
  {entries : List ImageEntry}

/-- An image that opens is loaded just when all of its entries unlock, each under the password of
the last settings for its alias; else loading fails as the first entry that is refused.  The
keystore holds the image's aliases and no others, with the deprecation that the last settings give
or else that of the keystore. -/
theorem load_all_or_first_refusal (htype : Text.upperAscii config.type = "CKS")
    (hlocation : source config.location = some image)
    (hentries : SealedImage.openEntries image config.password = .ok entries) :
    (∀ e, (load config source).outcome = .error e ↔ FirstRefusal config entries e) ∧
    ((∃ store, (load config source).outcome = .ok store) ↔
      ∀ entry ∈ entries, ∃ material,
        entry.Unlocks (config.password? entry.keyAlias) material) ∧
    ∀ store, (load config source).outcome = .ok store →
      store.identity = config.identity ∧ store.location = config.location ∧
      store.deprecated = config.deprecated ∧
      (∀ keyAlias, keyAlias ∈ store.keys.aliases ↔ keyAlias ∈ entries.map (·.keyAlias)) ∧
      ∀ entry ∈ entries, ∃ material,
        entry.Unlocks (config.password? entry.keyAlias) material ∧
        store.find? entry.keyAlias =
          some ⟨material, entry.keyAlias, config.isDeprecated entry.keyAlias⟩ := by
  have hfails : ∀ {e}, FirstRefusal config entries e → (load config source).outcome = .error e :=
    load_of_firstRefusal htype hlocation hentries
  have hloads := load_of_unlocks htype hlocation hentries
  -- every list is of one of two kinds, and the outcome tells which
  obtain hunlocks | ⟨first, hrefusal⟩ := unlocks_or_firstRefusal config entries
  · obtain ⟨keys, hkeys, haliases, hheld⟩ := hloads hunlocks
    refine ⟨fun e => ⟨fun h => ?_, hfails⟩, ⟨fun _ => hunlocks, fun _ => ⟨_, hkeys⟩⟩, ?_⟩
    · cases hkeys.symm.trans h
    · intro store hstore
      obtain rfl := Except.ok.inj (hkeys.symm.trans hstore)
      refine ⟨rfl, rfl, rfl, haliases, fun entry hmem => ?_⟩
      obtain ⟨material, hunlock, hkey⟩ := hheld entry hmem
      exact ⟨material, hunlock, by rw [find?, hkey]; rfl⟩
  · refine ⟨fun e => ⟨fun h => ?_, hfails⟩, ⟨?_, fun hunlocks => ?_⟩, ?_⟩
    · obtain rfl := Except.error.inj ((hfails hrefusal).symm.trans h)
      exact hrefusal
    · intro h
      obtain ⟨store, hstore⟩ := h
      cases (hfails hrefusal).symm.trans hstore
    · obtain ⟨keys, hkeys, -⟩ := hloads hunlocks
      cases (hfails hrefusal).symm.trans hkeys
    · intro store hstore
      cases (hfails hrefusal).symm.trans hstore

/-- The last settings for an alias count, for its password as for its deprecation, and those for an
alias without an entry do not.  Of two entries that are refused, the first in the image is reported,
whatever the order of the settings.  A password that is not the one of the key is tried and
refused. -/
theorem load_under_last_settings :
    (∃ image, SampleImage.twoKeys.sealImage SampleImage.zeros ⟨"store"⟩ = .ok image ∧
      (∃ store, (load ⟨"main", "here", "cks", ⟨"store"⟩, true,
          [⟨"k", some ⟨"shut"⟩, some true⟩, ⟨"m", none, none⟩, ⟨"k", some ⟨"open"⟩, some false⟩]⟩
          (fun _ => some image)).outcome = .ok store ∧
        store.find? "k" = some ⟨.ofSecret [1, 2, 3], "k", false⟩ ∧
        store.find? "l" = some ⟨.ofSecret [4], "l", true⟩) ∧
      (load ⟨"main", "here", "cks", ⟨"store"⟩, true,
          [⟨"l", some ⟨"open"⟩, none⟩, ⟨"k", some ⟨"open"⟩, none⟩, ⟨"k", some ⟨""⟩, none⟩]⟩
          (fun _ => some image)).outcome = .error (.badPassword "k" .passwordMissing)) ∧
    ∃ image, SampleImage.builder.sealImage SampleImage.zeros ⟨"store"⟩ = .ok image ∧
      (load (SampleImage.settings "store" "c") (fun _ => some image)).outcome =
        .error (.badPassword "k" .wrongPassword) := by
  constructor
  · obtain ⟨image, first, second, himage, hentries, hfirst, hsecond⟩ := SampleImage.exists_twoKeys
    have hk : first.Unlocks (some ⟨"open"⟩) (.ofSecret [1, 2, 3]) :=
      hfirst.unlocks_iff.mpr ⟨⟨_, _, rfl, rfl⟩, rfl⟩
    have hl : second.Unlocks none (.ofSecret [4]) :=
      hsecond.unlocks_iff.mpr ⟨⟨_, _, rfl, rfl⟩, rfl⟩
    have hfirstAlias : first.keyAlias = "k" := hfirst.sameAlias
    have hsecondAlias : second.keyAlias = "l" := hsecond.sameAlias
    refine ⟨image, himage, ?_, ?_⟩
    · have hpasswords : LocalKeystoreConfig.password? ⟨"main", "here", "cks", ⟨"store"⟩, true,
          [⟨"k", some ⟨"shut"⟩, some true⟩, ⟨"m", none, none⟩, ⟨"k", some ⟨"open"⟩, some false⟩]⟩
            "k" = some ⟨"open"⟩ ∧
          LocalKeystoreConfig.password? ⟨"main", "here", "cks", ⟨"store"⟩, true,
          [⟨"k", some ⟨"shut"⟩, some true⟩, ⟨"m", none, none⟩, ⟨"k", some ⟨"open"⟩, some false⟩]⟩
            "l" = none := by
        decide
      obtain ⟨-, hloads, hholds⟩ := @load_all_or_first_refusal
        ⟨"main", "here", "cks", ⟨"store"⟩, true,
          [⟨"k", some ⟨"shut"⟩, some true⟩, ⟨"m", none, none⟩, ⟨"k", some ⟨"open"⟩, some false⟩]⟩
        (fun _ => some image) image _ (by decide) rfl hentries
      simp only [List.forall_mem_cons, hfirstAlias, hsecondAlias, hpasswords] at hloads hholds
      obtain ⟨store, hstore⟩ := hloads.mpr ⟨⟨_, hk⟩, ⟨_, hl⟩, List.forall_mem_nil _⟩
      obtain ⟨-, -, -, -, ⟨material, hfound, hfindK⟩, ⟨other, hother, hfindL⟩, -⟩ :=
        hholds store hstore
      obtain ⟨-, rfl⟩ := hfirst.unlocks_iff.mp hfound
      obtain ⟨-, rfl⟩ := hsecond.unlocks_iff.mp hother
      exact ⟨store, hstore, hfindK, hfindL⟩
    · obtain ⟨hfails, -⟩ := @load_all_or_first_refusal
        ⟨"main", "here", "cks", ⟨"store"⟩, true,
          [⟨"l", some ⟨"open"⟩, none⟩, ⟨"k", some ⟨"open"⟩, none⟩, ⟨"k", some ⟨""⟩, none⟩]⟩
        (fun _ => some image) image _ (by decide) rfl hentries
      obtain ⟨protection, hprotection⟩ := Option.isSome_iff_exists.mp hfirst.sameProtection
      have hrefuses : first.Refuses "main" none (.badPassword first.keyAlias .passwordMissing) :=
        .passwordMissing hprotection
      rw [hfirstAlias] at hrefuses
      rw [hfails]
      refine ⟨[], first, [second], rfl, List.forall_mem_nil _, ?_⟩
      rw [hfirstAlias]
      exact hrefuses
  · obtain ⟨image, himage, hentries⟩ := SampleImage.exists_image
    obtain ⟨hfails, -⟩ := @load_all_or_first_refusal (SampleImage.settings "store" "c")
      (fun _ => some image) image _ (by decide) rfl hentries
    obtain ⟨hwell, hnothing⟩ := KeyDerivation.openData_eq_ok_none_iff.mp SampleImage.openData_c
    refine ⟨image, himage, ?_⟩
    rw [hfails]
    exact ⟨[], _, [], rfl, List.forall_mem_nil _, .wrongPassword rfl hwell hnothing⟩

end LocalStore

end CipherVault
