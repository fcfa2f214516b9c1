import CipherVault.Proofs.Keystore.Store
import CipherVault.Proofs.Keystore.Unlock
/-!
# Unlocking all entries

The entries of an image are unlocked in their order.  The first refusal is the outcome of the run
and of the loading; without refusals every entry's key is there, and nothing else.
-/

namespace CipherVault

namespace LocalKeystoreConfig

/-- The last settings in the list that are for an alias. -/
def lastKeyConfig? (config : LocalKeystoreConfig) (keyAlias : String) : Option KeyConfig :=
  (config.keys.filter (·.keyAlias = keyAlias)).getLast?

/-- The password present for an alias: that of its last settings, unless it is empty. -/
def password? (config : LocalKeystoreConfig) (keyAlias : String) : Option Password :=
  Password.nonEmpty ((config.lastKeyConfig? keyAlias).bind (·.password))

/-- The deprecation of an alias: that of its last settings, or else that of the keystore. -/
def isDeprecated (config : LocalKeystoreConfig) (keyAlias : String) : Bool :=
  ((config.lastKeyConfig? keyAlias).bind (·.deprecated)).getD config.deprecated

theorem keyConfig?_eq_lastKeyConfig? (config : LocalKeystoreConfig) (keyAlias : String) :
    config.keyConfig? keyAlias = config.lastKeyConfig? keyAlias := by
  rw [keyConfig?, lastKeyConfig?, ← List.head?_filter, List.filter_reverse, List.head?_reverse]

end LocalKeystoreConfig

/-- An image does not open with an alias twice. -/
theorem SealedImage.nodup_of_openEntries {image : Bytes} {password : Password}
    {entries : List ImageEntry} (h : openEntries image password = .ok entries) :
    (entries.map (·.keyAlias)).Nodup := by
  obtain ⟨_, -, h⟩ := Outcome.bind_eq_ok.mp h
  split at h
  · cases h
  split at h
  · cases h
  obtain ⟨opened, -, h⟩ := Outcome.bind_eq_ok.mp h
  cases opened with
  | none => cases h
  | some payload =>
    obtain ⟨found, -, h⟩ := Outcome.bind_eq_ok.mp h
    split at h
    · cases h
    · next hfresh =>
      cases h
      exact (ImageEntry.repeated?_eq_none_iff.mp hfresh).2

namespace LocalStore

variable {config : LocalKeystoreConfig} {entry : ImageEntry} {entries rest : List ImageEntry}
  {keys result : LocalKeys} {material : KeyMaterial} {e : KeyError}

theorem outcome_unlockAll_cons (config : LocalKeystoreConfig) (keys : LocalKeys)
    (entry : ImageEntry) (rest : List ImageEntry) :
    (unlockAll config keys (entry :: rest)).outcome =
      (unlock config.identity entry (config.keyConfig? entry.keyAlias)).outcome >>= fun material =>
        (unlockAll config (keys.add ⟨material, entry.keyAlias,
          ((config.keyConfig? entry.keyAlias).bind (·.deprecated)).getD config.deprecated⟩)
            rest).outcome := by
  rw [unlockAll, Traced.outcome_bind]

/-- An entry that unlocks adds its key, with the deprecation of its alias. -/
theorem unlockAll_cons_of_unlocks
    (h : entry.Unlocks (config.password? entry.keyAlias) material) (keys : LocalKeys)
    (rest : List ImageEntry) :
    (unlockAll config keys (entry :: rest)).outcome =
      (unlockAll config (keys.add
        ⟨material, entry.keyAlias, config.isDeprecated entry.keyAlias⟩) rest).outcome := by
  rw [outcome_unlockAll_cons, config.keyConfig?_eq_lastKeyConfig?, unlock_of_unlocks rfl h,
    Outcome.ok_bind]
  rfl

/-- An entry that is refused ends the run. -/
theorem unlockAll_cons_of_refuses
    (h : entry.Refuses config.identity (config.password? entry.keyAlias) e)
    (keys : LocalKeys) (rest : List ImageEntry) :
    (unlockAll config keys (entry :: rest)).outcome = .error e := by
  rw [outcome_unlockAll_cons, config.keyConfig?_eq_lastKeyConfig?, unlock_of_refuses rfl h,
    Outcome.error_bind]

/-- The first entry that is refused, behind entries that unlock, and the error that tells why. -/
def FirstRefusal (config : LocalKeystoreConfig) (entries : List ImageEntry) (e : KeyError) : Prop :=
  ∃ before entry after, entries = before ++ entry :: after ∧
    (∀ earlier ∈ before, ∃ material,
      earlier.Unlocks (config.password? earlier.keyAlias) material) ∧
    entry.Refuses config.identity (config.password? entry.keyAlias) e

theorem FirstRefusal.append (h : FirstRefusal config entries e) (more : List ImageEntry) :
    FirstRefusal config (entries ++ more) e := by
  obtain ⟨before, entry, after, rfl, hbefore, hentry⟩ := h
  exact ⟨before, entry, after ++ more, by simp, hbefore, hentry⟩

/-- Behind entries that unlock, the first refusal is the outcome, whatever follows.  The induction
is on the entries before it. -/
theorem unlockAll_of_refuses {before after : List ImageEntry}
    (hbefore : ∀ earlier ∈ before, ∃ material,
      earlier.Unlocks (config.password? earlier.keyAlias) material)
    (hentry : entry.Refuses config.identity (config.password? entry.keyAlias) e)
    (keys : LocalKeys) :
    (unlockAll config keys (before ++ entry :: after)).outcome = .error e := by
  induction before generalizing keys with
  | nil => exact unlockAll_cons_of_refuses hentry keys after
  | cons first before ih =>
    obtain ⟨⟨material, hfirst⟩, hbefore⟩ := List.forall_mem_cons.mp hbefore
    rw [List.cons_append, unlockAll_cons_of_unlocks hfirst]
    exact ih hbefore _

/-- Entries that all unlock yield their keys and, apart from their aliases, what was there
before. -/
theorem unlockAll_of_unlocks
    (h : ∀ entry ∈ entries, ∃ material,
      entry.Unlocks (config.password? entry.keyAlias) material)
    (hnodup : (entries.map (·.keyAlias)).Nodup) (keys : LocalKeys) :
    ∃ result, (unlockAll config keys entries).outcome = .ok result ∧
      (∀ entry ∈ entries, ∃ material, entry.Unlocks (config.password? entry.keyAlias) material ∧
        result.get? entry.keyAlias =
          some ⟨material, entry.keyAlias, config.isDeprecated entry.keyAlias⟩) ∧
      ∀ keyAlias ∉ entries.map (·.keyAlias), result.get? keyAlias = keys.get? keyAlias := by
  induction entries generalizing keys with
  | nil => exact ⟨keys, rfl, by simp, fun _ _ => rfl⟩
  | cons first rest ih =>
    rw [List.map_cons, List.nodup_cons] at hnodup
    obtain ⟨⟨material, hfirst⟩, hrest⟩ := List.forall_mem_cons.mp h
    obtain ⟨result, hresult, hheld, hkept⟩ := ih hrest hnodup.2
      (keys.add ⟨material, first.keyAlias, config.isDeprecated first.keyAlias⟩)
    refine ⟨result, (unlockAll_cons_of_unlocks hfirst keys rest).trans hresult,
      List.forall_mem_cons.mpr ⟨⟨material, hfirst, ?_⟩, hheld⟩, ?_⟩
    · rw [hkept _ hnodup.1, LocalKeys.get?_add, if_pos rfl]
    · intro keyAlias habsent
      rw [List.map_cons, List.mem_cons, not_or] at habsent
      rw [hkept _ habsent.2, LocalKeys.get?_add, if_neg habsent.1]

/-- All entries of a list unlock, or there is a first one that is refused. -/
theorem unlocks_or_firstRefusal (config : LocalKeystoreConfig) (entries : List ImageEntry) :
    (∀ entry ∈ entries, ∃ material, entry.Unlocks (config.password? entry.keyAlias) material) ∨
      ∃ e, FirstRefusal config entries e := by
  induction entries with
  | nil => exact .inl (List.forall_mem_nil _)
  | cons first rest ih =>
    obtain hfirst | ⟨e, hfirst⟩ :=
      first.unlocks_or_refuses config.identity (config.password? first.keyAlias)
    · obtain hrest | ⟨e, before, entry, after, rfl, hbefore, hentry⟩ := ih
      · exact .inl (List.forall_mem_cons.mpr ⟨hfirst, hrest⟩)
      · exact .inr ⟨e, first :: before, entry, after, rfl,
          List.forall_mem_cons.mpr ⟨hfirst, hbefore⟩, hentry⟩
    · exact .inr ⟨e, [], first, rest, rfl, List.forall_mem_nil _, hfirst⟩

/-! ## Loading -/

variable {source : ImageSource} {image : Bytes} {store : LocalStore}

theorem locate_eq_ok_iff :
    locate config source = .ok image ↔
      Text.upperAscii config.type = imageFormat ∧ source config.location = some image := by
  rw [locate]
  split
  · next htype => simp [htype]
  · next htype =>
    rw [ne_eq, Decidable.not_not] at htype
    cases source config.location with
    | none => simp
    | some found => simp [htype]

/-- What is loaded was located, opened and unlocked. -/
theorem outcome_load_eq_ok_iff :
    (load config source).outcome = .ok store ↔
      ∃ image entries keys, locate config source = .ok image ∧
        SealedImage.openEntries image config.password = .ok entries ∧
        (unlockAll config .empty entries).outcome = .ok keys ∧
        store = ⟨config.identity, config.location, config.deprecated, keys⟩ := by
  simp only [load, Traced.outcome_bind, Traced.outcome_ofExcept, Traced.outcome_reportAll,
    Traced.outcome_report, Traced.outcome_pure, Outcome.ok_bind, Outcome.bind_eq_ok,
    Outcome.mapError_eq_ok, Except.ok.injEq]
  constructor
  · intro h
    obtain ⟨image, himage, entries, hentries, keys, hkeys, rfl⟩ := h
    exact ⟨image, entries, keys, himage, hentries, hkeys, rfl⟩
  · intro h
    obtain ⟨image, entries, keys, himage, hentries, hkeys, rfl⟩ := h
    exact ⟨image, himage, entries, hentries, keys, hkeys, rfl⟩

/-- Of a located image that opens, loading unlocks all entries. -/
theorem outcome_load (htype : Text.upperAscii config.type = imageFormat)
    (hlocation : source config.location = some image)
    (hentries : SealedImage.openEntries image config.password = .ok entries) :
    (load config source).outcome = (unlockAll config .empty entries).outcome.map fun keys =>
      ⟨config.identity, config.location, config.deprecated, keys⟩ := by
  have hlocate : locate config source = .ok image := locate_eq_ok_iff.mpr ⟨htype, hlocation⟩
  simp only [load, hlocate, hentries, Outcome.mapError_ok, Traced.outcome_bind,
    Traced.outcome_ofExcept, Traced.outcome_reportAll, Traced.outcome_report, Traced.outcome_pure,
    Outcome.ok_bind]
  cases (unlockAll config .empty entries).outcome with
  | ok keys => rfl
  | error e => rfl

/-- A located image that does not open is not loaded, with the error that tells why. -/
theorem load_of_openEntries_error {cause : ImageError}
    (htype : Text.upperAscii config.type = imageFormat)
    (hlocation : source config.location = some image)
    (h : SealedImage.openEntries image config.password = .error cause) :
    (load config source).outcome = .error (.invalidKeystore config.identity (.image cause)) := by
  have hlocate : locate config source = .ok image := locate_eq_ok_iff.mpr ⟨htype, hlocation⟩
  simp only [load, hlocate, h, Outcome.mapError_error, Traced.outcome_bind,
    Traced.outcome_ofExcept, Outcome.ok_bind, Outcome.error_bind]

/-- The first refusal among the entries is the outcome of the loading. -/
theorem load_of_firstRefusal (htype : Text.upperAscii config.type = imageFormat)
    (hlocation : source config.location = some image)
    (hentries : SealedImage.openEntries image config.password = .ok entries)
    (h : FirstRefusal config entries e) : (load config source).outcome = .error e := by
  obtain ⟨before, entry, after, rfl, hbefore, hentry⟩ := h
  rw [outcome_load htype hlocation hentries, unlockAll_of_refuses hbefore hentry]
  rfl

/-- An image whose entries all unlock is loaded, with their keys and no others. -/
theorem load_of_unlocks (htype : Text.upperAscii config.type = imageFormat)
    (hlocation : source config.location = some image)
    (hentries : SealedImage.openEntries image config.password = .ok entries)
    (hunlocks : ∀ entry ∈ entries, ∃ material,
      entry.Unlocks (config.password? entry.keyAlias) material) :
    ∃ keys, (load config source).outcome =
        .ok ⟨config.identity, config.location, config.deprecated, keys⟩ ∧
      (∀ keyAlias, keyAlias ∈ keys.aliases ↔ keyAlias ∈ entries.map (·.keyAlias)) ∧
      ∀ entry ∈ entries, ∃ material, entry.Unlocks (config.password? entry.keyAlias) material ∧
        keys.get? entry.keyAlias =
          some ⟨material, entry.keyAlias, config.isDeprecated entry.keyAlias⟩ := by
  obtain ⟨keys, hkeys, hheld, hkept⟩ :=
    unlockAll_of_unlocks hunlocks (SealedImage.nodup_of_openEntries hentries) .empty
  refine ⟨keys, by rw [outcome_load htype hlocation hentries, hkeys]; rfl, ?_, hheld⟩
  intro keyAlias
  rw [AliasMap.mem_aliases]
  constructor
  · intro h
    obtain ⟨key, hkey⟩ := h
    by_cases hmem : keyAlias ∈ entries.map (·.keyAlias)
    · exact hmem
    · rw [hkept keyAlias hmem, LocalKeys.get?_empty] at hkey
      cases hkey
  · intro h
    obtain ⟨entry, hentry, rfl⟩ := List.mem_map.mp h
    obtain ⟨material, -, hkey⟩ := hheld entry hentry
    exact ⟨_, hkey⟩

/-- An image that opens fails to load as the first of its entries that is refused. -/
theorem load_eq_error_iff (htype : Text.upperAscii config.type = imageFormat)
    (hlocation : source config.location = some image)
    (hentries : SealedImage.openEntries image config.password = .ok entries) :
    (load config source).outcome = .error e ↔ FirstRefusal config entries e := by
  constructor
  · intro h
    obtain hunlocks | ⟨first, hrefusal⟩ := unlocks_or_firstRefusal config entries
    · obtain ⟨keys, hkeys, -⟩ := load_of_unlocks htype hlocation hentries hunlocks
      cases hkeys.symm.trans h
    · have hfirst := load_of_firstRefusal htype hlocation hentries hrefusal
      obtain rfl := Except.error.inj (hfirst.symm.trans h)
      exact hrefusal
  · intro h
    exact load_of_firstRefusal htype hlocation hentries h

end LocalStore

end CipherVault
