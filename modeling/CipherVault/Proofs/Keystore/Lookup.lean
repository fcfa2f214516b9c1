import CipherVault.Proofs.Keystore.Load
/-!
# The look-up contract of keystores

Keystores are assembled by an application or loaded from an image.  Both kinds list exactly the
aliases that were put into them, in the order of their bytes, and find one key under each: reported
with the alias that was asked for, and found by its own kind alone.
-/

namespace CipherVault

/-- What a keystore promises to those who look up keys in it. -/
structure KeyStore.LookupContract (store : KeyStore) : Prop where
  increasing : store.aliases.Pairwise fun left right => Utf8.encode left < Utf8.encode right
  nodup : store.aliases.Nodup
  listed : ∀ keyAlias, keyAlias ∈ store.aliases ↔ ∃ found, store.find? keyAlias = some found
  asked : ∀ keyAlias found, store.find? keyAlias = some found → found.keyAlias = keyAlias
  ofKind : ∀ keyAlias kind material, store.findOfKind? keyAlias kind = some material ↔
    ∃ found, store.find? keyAlias = some found ∧ found.material.kind = kind ∧
      found.material = material
  oneKind : ∀ keyAlias ∈ store.aliases, ∃ kind, ∀ other,
    (∃ material, store.findOfKind? keyAlias other = some material) ↔ other = kind

theorem KeyStore.lookupContract (store : KeyStore) : store.LookupContract where
  increasing := store.pairwise_aliases
  nodup := by
    apply store.pairwise_aliases.imp
    intro left right hbefore heq
    rw [heq] at hbefore
    exact List.lt_irrefl _ hbefore
  listed _ := mem_aliases_iff
  asked _ _ := keyAlias_of_find?
  ofKind _ _ _ := findOfKind?_eq_some_iff
  oneKind := by
    intro keyAlias hmem
    obtain ⟨found, hfound⟩ := mem_aliases_iff.mp hmem
    refine ⟨found.material.kind, fun other => ?_⟩
    simp only [findOfKind?_eq_some_iff, hfound, Option.some.injEq, exists_eq_left']
    exact ⟨fun ⟨_, hkind, _⟩ => hkind.symm, fun hother => ⟨_, hother.symm, rfl⟩⟩

/-! ## Keystores that an application assembles -/

namespace StaticStore

/-- A call with which an application assembles a keystore. -/
inductive Call where
  | markDeprecated (deprecated : Bool)
  | withKey (keyAlias : String) (material : KeyMaterial)
  | withKeyDeprecation (keyAlias : String) (material : KeyMaterial) (deprecated : Bool)
  | withDeprecatedKey (keyAlias : String) (material : KeyMaterial)

namespace Call

def apply (store : StaticStore) : Call → StaticStore
  | markDeprecated deprecated => store.markDeprecated deprecated
  | withKey keyAlias material => store.withKey keyAlias material
  | withKeyDeprecation keyAlias material deprecated =>
    store.withKeyDeprecation keyAlias material deprecated
  | withDeprecatedKey keyAlias material => store.withDeprecatedKey keyAlias material

/-- The alias and the key that a call adds, with the deprecation that it gives the key. -/
def entry? : Call → Option (String × StaticKey)
  | markDeprecated _ => none
  | withKey keyAlias material => some (keyAlias, ⟨material, none⟩)
  | withKeyDeprecation keyAlias material deprecated => some (keyAlias, ⟨material, some deprecated⟩)
  | withDeprecatedKey keyAlias material => some (keyAlias, ⟨material, some true⟩)

def keyAlias? (call : Call) : Option String :=
  call.entry?.map Prod.fst

/-- The mark that a call gives the keystore. -/
def mark? : Call → Option Bool
  | markDeprecated deprecated => some deprecated
  | withKey .. | withKeyDeprecation .. | withDeprecatedKey .. => none

variable {store : StaticStore} {call : Call} {keyAlias : String} {key : StaticKey}

/-- A call that adds no key marks the keystore. -/
theorem apply_of_no_entry (h : call.entry? = none) :
    call.apply store = { store with deprecated := call.mark?.getD store.deprecated } := by
  cases call with
  | markDeprecated deprecated => rfl
  | _ => cases h

/-- A call that adds a key changes nothing else. -/
theorem apply_of_entry (h : call.entry? = some (keyAlias, key)) :
    call.apply store = { store with keys := store.keys.insert keyAlias key } := by
  cases call with
  | markDeprecated deprecated => cases h
  | _ =>
    cases h
    rfl

end Call

/-- The keystore that a sequence of calls assembles. -/
def assemble (identity : String) (calls : List Call) : StaticStore :=
  calls.foldl Call.apply (empty identity)

/-- A call adds its alias and drops none. -/
theorem mem_aliases_apply {store : StaticStore} {call : Call} {keyAlias : String} :
    keyAlias ∈ (call.apply store).keys.aliases ↔
      keyAlias ∈ store.keys.aliases ∨ call.keyAlias? = some keyAlias := by
  rw [Call.keyAlias?]
  cases hentry : call.entry? with
  | none =>
    rw [Call.apply_of_no_entry hentry]
    simp
  | some entry =>
    rw [Call.apply_of_entry hentry, AliasMap.mem_aliases_insert, Option.map_some,
      Option.some.injEq, or_comm, eq_comm]

theorem mem_aliases_foldl {store : StaticStore} {calls : List Call} {keyAlias : String} :
    keyAlias ∈ (calls.foldl Call.apply store).keys.aliases ↔
      keyAlias ∈ store.keys.aliases ∨ keyAlias ∈ calls.filterMap Call.keyAlias? := by
  induction calls generalizing store with
  | nil => simp
  | cons call rest ih =>
    rw [List.foldl_cons, ih, mem_aliases_apply, or_assoc, List.mem_filterMap, List.mem_filterMap]
    simp only [List.exists_mem_cons_iff]

theorem mem_aliases_assemble {identity : String} {calls : List Call} {keyAlias : String} :
    keyAlias ∈ (assemble identity calls).keys.aliases ↔
      keyAlias ∈ calls.filterMap Call.keyAlias? := by
  rw [assemble, mem_aliases_foldl]
  exact or_iff_right List.not_mem_nil

end StaticStore

/-! ## Keystores that are loaded -/

namespace LocalStore

variable {config : LocalKeystoreConfig} {entries : List ImageEntry} {keys result : LocalKeys}
  {keyAlias : String}

/-- Unlocking adds the aliases of the entries. -/
theorem mem_aliases_of_unlockAll (h : (unlockAll config keys entries).outcome = .ok result) :
    keyAlias ∈ result.aliases ↔
      keyAlias ∈ keys.aliases ∨ keyAlias ∈ entries.map (·.keyAlias) := by
  induction entries generalizing keys with
  | nil =>
    obtain rfl := Except.ok.inj h
    simp
  | cons entry rest ih =>
    rw [outcome_unlockAll_cons] at h
    obtain ⟨material, -, hrest⟩ := Outcome.bind_eq_ok.mp h
    rw [ih hrest, LocalKeys.mem_aliases_add, List.map_cons, List.mem_cons, or_assoc, or_left_comm]

end LocalStore

/-- Every keystore that calls assemble and every one that is loaded keeps the contract, and lists
the aliases that the calls add or that the entries of its image have. -/
theorem KeyStore.stores_keep_lookup_contract :
    (∀ (identity : String) (calls : List StaticStore.Call),
      (ofKeys (.assemble identity calls)).LookupContract ∧
      ∀ keyAlias, keyAlias ∈ (ofKeys (.assemble identity calls)).aliases ↔
        keyAlias ∈ calls.filterMap (·.keyAlias?)) ∧
    ∀ (config : LocalKeystoreConfig) (source : ImageSource) (store : LocalStore),
      (LocalStore.load config source).outcome = .ok store →
      (ofImage store).LookupContract ∧
      ∃ image entries, source config.location = some image ∧
        SealedImage.openEntries image config.password = .ok entries ∧
        ∀ keyAlias, keyAlias ∈ (ofImage store).aliases ↔ keyAlias ∈ entries.map (·.keyAlias) := by
  constructor
  · intro identity calls
    exact ⟨lookupContract _, fun keyAlias => StaticStore.mem_aliases_assemble⟩
  · intro config source store h
    obtain ⟨image, entries, keys, hlocate, hentries, hkeys, rfl⟩ :=
      LocalStore.outcome_load_eq_ok_iff.mp h
    refine ⟨lookupContract _, image, entries, (LocalStore.locate_eq_ok_iff.mp hlocate).2, hentries,
      fun keyAlias => ?_⟩
    exact (LocalStore.mem_aliases_of_unlockAll hkeys).trans (or_iff_right List.not_mem_nil)

/-- Two keys in an order that is not that of their aliases: added by calls, one of which replaces a
key, and sealed in an image. -/
theorem KeyStore.stores_keep_lookup_contract_two_keys :
    (∀ keyAlias, keyAlias ∈ (ofKeys (.assemble "main" [.withKey "l" (.ofSecret [1]),
        .withDeprecatedKey "k" (.ofSecret [2]), .markDeprecated true,
        .withKeyDeprecation "l" (.ofSecret [3]) false])).aliases ↔ keyAlias ∈ ["l", "k", "l"]) ∧
    ∃ image store,
      (ImageBuilder.mk 1 [⟨"l", .ofSecret [1, 2, 3], some ⟨"open"⟩⟩,
        ⟨"k", .ofSecret [4], none⟩]).sealImage
          ⟨fun _ => 0, fun _ => ⟨1, by decide⟩⟩ ⟨"store"⟩ = .ok image ∧
      (LocalStore.load ⟨"main", "here", "cks", ⟨"store"⟩, false, [⟨"l", some ⟨"open"⟩, none⟩]⟩
        (fun _ => some image)).outcome = .ok store ∧
      (ofImage store).LookupContract ∧
      ∀ keyAlias, keyAlias ∈ (ofImage store).aliases ↔ keyAlias ∈ ["l", "k"] := by
  obtain ⟨hassembled, hloaded⟩ := stores_keep_lookup_contract
  refine ⟨(hassembled "main" _).2, ?_⟩
  obtain ⟨image, himage⟩ := (ImageBuilder.exists_sealImage_iff
    (ImageBuilder.mk 1 [⟨"l", .ofSecret [1, 2, 3], some ⟨"open"⟩⟩, ⟨"k", .ofSecret [4], none⟩])
    ⟨fun _ => 0, fun _ => ⟨1, by decide⟩⟩ ⟨"store"⟩).mpr ⟨by decide, by decide, by
      simp only [List.forall_mem_cons]
      exact ⟨⟨_, rfl⟩, ⟨_, rfl⟩, List.forall_mem_nil _⟩⟩
  have hreadable : ∀ entry ∈ [PendingEntry.mk "l" (.ofSecret [1, 2, 3]) (some ⟨"open"⟩),
      ⟨"k", .ofSecret [4], none⟩], entry.material.IsReadable := by
    simp only [List.forall_mem_cons, KeyMaterial.isReadable_ofSecret_iff]
    exact ⟨by decide, by decide, List.forall_mem_nil _⟩
  have hpasswords : LocalStore.HasPasswords
      ⟨"main", "here", "cks", ⟨"store"⟩, false, [⟨"l", some ⟨"open"⟩, none⟩]⟩
      [⟨"l", .ofSecret [1, 2, 3], some ⟨"open"⟩⟩, ⟨"k", .ofSecret [4], none⟩] := by
    simp only [LocalStore.HasPasswords, List.forall_mem_cons]
    exact ⟨by decide, by decide, List.forall_mem_nil _⟩
  obtain ⟨store, hstore⟩ := @LocalStore.exists_load_of_isReadable
    ⟨"main", "here", "cks", ⟨"store"⟩, false, [⟨"l", some ⟨"open"⟩, none⟩]⟩ _ _
    (fun _ => some image) _ himage (by decide) rfl hpasswords hreadable
  obtain ⟨hcontract, found, entries, hfound, hentries, haliases⟩ := hloaded _ _ store hstore
  obtain ⟨sealedEntries, hseals, hopened⟩ := ImageBuilder.openEntries_of_sealImage himage
  obtain rfl := Option.some.inj hfound
  obtain rfl := Except.ok.inj (hopened.symm.trans hentries)
  rw [Seals.map_keyAlias hseals] at haliases
  exact ⟨image, store, himage, hstore, hcontract, haliases⟩

end CipherVault
