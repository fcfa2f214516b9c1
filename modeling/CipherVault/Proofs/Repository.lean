import CipherVault.Proofs.Keystore.Load
import CipherVault.Provider
/-!
# Repositories are built whole

A repository holds the keystores of all configurations, or construction fails with the first
configuration that yields none; only then with the first identity that is there twice, and only then
with a default that is not there.  What a repository finds by identity, as its default and for a
provider is loaded from the one configuration with that identity.
-/

namespace CipherVault

/-- A loaded keystore goes by the identity of its configuration. -/
theorem LocalStore.identity_of_load {config : LocalKeystoreConfig} {source : ImageSource}
    {store : LocalStore} (h : (load config source).outcome = .ok store) :
    store.identity = config.identity := by
  obtain ⟨image, entries, keys, -, -, -, rfl⟩ := outcome_load_eq_ok_iff.mp h
  rfl

namespace KeystoreConfig

variable {source : ImageSource} {config : KeystoreConfig} {keystore : KeyStore} {e : KeyError}

/-- The keystore of a configuration: the one that is loaded for a local one, none for a remote
one. -/
inductive Yields (source : ImageSource) : KeystoreConfig → KeyStore → Prop where
  | loaded {config : LocalKeystoreConfig} {store : LocalStore}
      (hload : (LocalStore.load config source).outcome = .ok store) :
    Yields source (.ofLocal config) (.ofImage store)

/-- Why a configuration yields no keystore. -/
inductive Refuses (source : ImageSource) : KeystoreConfig → KeyError → Prop where
  | remote {config : RemoteKeystoreConfig} :
    Refuses source (.ofRemote config) (.remoteKeystore config.identity)
  | unloadable {config : LocalKeystoreConfig} {e : KeyError}
      (hload : (LocalStore.load config source).outcome = .error e) :
    Refuses source (.ofLocal config) e

theorem Yields.identity_eq (h : config.Yields source keystore) :
    keystore.identity = config.identity := by
  cases h with
  | loaded hload => exact LocalStore.identity_of_load hload

theorem Yields.unique {other : KeyStore} (h : config.Yields source keystore)
    (hother : config.Yields source other) : keystore = other := by
  cases h with
  | loaded hload =>
    cases hother with
    | loaded hother => rw [Except.ok.inj (hload.symm.trans hother)]

/-- A configuration does not both yield a keystore and fail to. -/
theorem Refuses.not_yields (h : config.Refuses source e) : ¬config.Yields source keystore := by
  intro hyields
  cases h with
  | remote => cases hyields
  | unloadable hload =>
    cases hyields with
    | loaded hloaded => cases hload.symm.trans hloaded

theorem outcome_loadOne_eq_ok_iff :
    (Repository.loadOne source config).outcome = .ok keystore ↔ config.Yields source keystore := by
  cases config with
  | ofLocal config =>
    simp only [Repository.loadOne, Traced.outcome_bind, Traced.outcome_pure, Outcome.bind_eq_ok,
      Except.ok.injEq]
    constructor
    · intro h
      obtain ⟨store, hload, rfl⟩ := h
      exact .loaded hload
    · intro h
      cases h with
      | loaded hload => exact ⟨_, hload, rfl⟩
  | ofRemote config =>
    constructor
    · intro h
      cases h
    · intro h
      cases h

theorem outcome_loadOne_eq_error_iff :
    (Repository.loadOne source config).outcome = .error e ↔ config.Refuses source e := by
  cases config with
  | ofLocal config =>
    rw [Repository.loadOne, Traced.outcome_bind]
    constructor
    · intro h
      cases hload : (LocalStore.load config source).outcome with
      | ok store =>
        rw [hload] at h
        cases h
      | error cause =>
        rw [hload] at h
        cases h
        exact .unloadable hload
    · intro h
      cases h with
      | unloadable hload => rw [hload, Outcome.error_bind]
  | ofRemote config =>
    constructor
    · intro h
      cases h
      exact .remote
    · intro h
      cases h
      rfl

end KeystoreConfig

namespace Repository

variable {source : ImageSource} {configs : List KeystoreConfig} {keystores : List KeyStore}
  {e : KeyError}

theorem outcome_loadAll_cons (source : ImageSource) (config : KeystoreConfig)
    (rest : List KeystoreConfig) :
    (loadAll source (config :: rest)).outcome =
      (loadOne source config).outcome >>= fun first =>
        (loadAll source rest).outcome >>= fun more => .ok (first :: more) := by
  simp only [loadAll, Traced.outcome_bind, Traced.outcome_pure]

/-- All configurations are loaded exactly if each of them yields its keystore, in their order. -/
theorem outcome_loadAll_eq_ok_iff :
    (loadAll source configs).outcome = .ok keystores ↔
      List.Forall₂ (KeystoreConfig.Yields source) configs keystores := by
  induction configs generalizing keystores with
  | nil =>
    rw [List.forall₂_nil_left_iff, loadAll, Traced.outcome_pure, Except.ok.injEq, eq_comm]
  | cons config rest ih =>
    simp only [outcome_loadAll_cons, Outcome.bind_eq_ok, List.forall₂_cons_left_iff, ih,
      KeystoreConfig.outcome_loadOne_eq_ok_iff, Except.ok.injEq]
    constructor
    · intro h
      obtain ⟨first, hfirst, more, hmore, rfl⟩ := h
      exact ⟨first, more, hfirst, hmore, rfl⟩
    · intro h
      obtain ⟨first, more, hfirst, hmore, rfl⟩ := h
      exact ⟨first, hfirst, more, hmore, rfl⟩

/-- The first configuration that yields no keystore, behind ones that do, and the error that tells
why. -/
def FirstRefusal (source : ImageSource) (configs : List KeystoreConfig) (e : KeyError) : Prop :=
  ∃ before config after, configs = before ++ config :: after ∧
    (∀ earlier ∈ before, ∃ keystore, earlier.Yields source keystore) ∧ config.Refuses source e

/-- Loading ends at the first configuration that yields no keystore.  The induction follows the
configurations before it. -/
theorem outcome_loadAll_eq_error_iff :
    (loadAll source configs).outcome = .error e ↔ FirstRefusal source configs e := by
  constructor
  · intro h
    induction configs with
    | nil => cases h
    | cons config rest ih =>
      rw [outcome_loadAll_cons] at h
      cases hfirst : (loadOne source config).outcome with
      | error cause =>
        rw [hfirst] at h
        cases h
        exact ⟨[], config, rest, rfl, List.forall_mem_nil _,
          KeystoreConfig.outcome_loadOne_eq_error_iff.mp hfirst⟩
      | ok keystore =>
        have hyields := KeystoreConfig.outcome_loadOne_eq_ok_iff.mp hfirst
        cases hrest : (loadAll source rest).outcome with
        | error cause =>
          rw [hfirst, hrest] at h
          cases h
          obtain ⟨before, refused, after, rfl, hbefore, hrefused⟩ := ih hrest
          exact ⟨config :: before, refused, after, rfl,
            List.forall_mem_cons.mpr ⟨⟨keystore, hyields⟩, hbefore⟩, hrefused⟩
        | ok more =>
          rw [hfirst, hrest] at h
          cases h
  · intro h
    obtain ⟨before, config, after, rfl, hbefore, hrefused⟩ := h
    induction before with
    | nil =>
      rw [List.nil_append, outcome_loadAll_cons,
        KeystoreConfig.outcome_loadOne_eq_error_iff.mpr hrefused, Outcome.error_bind]
    | cons first before ih =>
      obtain ⟨⟨keystore, hfirst⟩, hbefore⟩ := List.forall_mem_cons.mp hbefore
      rw [List.cons_append, outcome_loadAll_cons,
        KeystoreConfig.outcome_loadOne_eq_ok_iff.mpr hfirst, ih hbefore]
      rfl

/-! ## What a repository finds -/

theorem map_identity_eq (h : List.Forall₂ (KeystoreConfig.Yields source) configs keystores) :
    keystores.map (·.identity) = configs.map (·.identity) := by
  induction h with
  | nil => rfl
  | cons hfirst _ ih => rw [List.map_cons, List.map_cons, hfirst.identity_eq, ih]

/-- Under distinct identities a keystore is found by its own. -/
theorem find?_eq_some_iff_mem (hnodup : (keystores.map (·.identity)).Nodup) {identity : String}
    {keystore : KeyStore} :
    find? keystores identity = some keystore ↔
      keystore ∈ keystores ∧ keystore.identity = identity := by
  constructor
  · intro h
    exact ⟨List.mem_of_find?_eq_some h, by simpa using List.find?_some h⟩
  · intro h
    obtain ⟨hmem, rfl⟩ := h
    induction keystores with
    | nil => cases hmem
    | cons first rest ih =>
      rw [List.map_cons, List.nodup_cons] at hnodup
      rcases List.mem_cons.mp hmem with rfl | hmem
      · exact List.find?_cons_of_pos (by simp)
      · have hne : ¬first.identity = keystore.identity := fun heq =>
          hnodup.1 (heq ▸ List.mem_map_of_mem hmem)
        rw [find?, List.find?_cons_of_neg (by simpa using hne)]
        exact ih hnodup.2 hmem

/-- What is found is what the one configuration with the identity yields. -/
theorem find?_eq_some_iff_yields
    (h : List.Forall₂ (KeystoreConfig.Yields source) configs keystores)
    (hnodup : (configs.map (·.identity)).Nodup) {identity : String} {keystore : KeyStore} :
    find? keystores identity = some keystore ↔
      ∃ config ∈ configs, config.identity = identity ∧ config.Yields source keystore := by
  rw [find?_eq_some_iff_mem (map_identity_eq h ▸ hnodup)]
  constructor
  · intro hfound
    obtain ⟨hmem, rfl⟩ := hfound
    obtain ⟨config, hconfig, hyields⟩ := exists_related_of_mem h hmem
    exact ⟨config, hconfig, hyields.identity_eq.symm, hyields⟩
  · intro hfound
    obtain ⟨config, hconfig, rfl, hyields⟩ := hfound
    obtain ⟨other, hmem, hother⟩ := exists_related_of_mem h.flip hconfig
    obtain rfl := hyields.unique hother
    exact ⟨hmem, hyields.identity_eq⟩

theorem isSome_find?_iff {identity : String} :
    (find? keystores identity).isSome = true ↔ identity ∈ keystores.map (·.identity) := by
  rw [find?, List.find?_isSome, List.mem_map]
  simp

theorem find?_eq_map_index? (keystores : List KeyStore) (identity : String) :
    find? keystores identity = (index? keystores identity).map (keystores[·]) :=
  List.find?_eq_map_findFinIdx?_getElem

theorem isSome_index?_iff {identity : String} :
    (index? keystores identity).isSome = true ↔ identity ∈ keystores.map (·.identity) := by
  rw [← isSome_find?_iff, find?_eq_map_index?, Option.isSome_map]

/-- The chosen place is that of the keystore with the identity that the pointer names, or else with
the first one. -/
theorem default_of_chooseDefault {pointer : Option String} {index : Option (Fin keystores.length)}
    (h : chooseDefault keystores pointer = .ok index) :
    (∀ identity, pointer = some identity → identity ∈ keystores.map (·.identity)) ∧
      (Repository.mk keystores index).default =
        (pointer <|> (keystores.map (·.identity)).head?).bind (find? keystores) := by
  cases pointer with
  | none =>
    obtain rfl := Except.ok.inj h
    refine ⟨nofun, ?_⟩
    cases keystores with
    | nil => rfl
    | cons first rest => simp [default, find?]
  | some identity =>
    rw [chooseDefault] at h
    split at h
    · next found hfound =>
      obtain rfl := Except.ok.inj h
      constructor
      · rintro _ ⟨rfl⟩
        rw [← isSome_index?_iff, hfound]
        rfl
      · change _ = find? keystores identity
        rw [find?_eq_map_index?, hfound]
        rfl
    · cases h

theorem chooseDefault_eq_error_iff {pointer : Option String} :
    chooseDefault keystores pointer = .error e ↔
      ∃ identity, pointer = some identity ∧ identity ∉ keystores.map (·.identity) ∧
        e = .invalidKeystore identity .unknownDefault := by
  cases pointer with
  | none => simp [chooseDefault]
  | some identity =>
    simp only [chooseDefault, Option.some.injEq, exists_eq_left', ← isSome_index?_iff]
    cases index? keystores identity with
    | none => simp [eq_comm]
    | some index => simp

theorem chooseDefault_eq_ok_none_iff {pointer : Option String} :
    chooseDefault keystores pointer = .ok none ↔ keystores = [] ∧ pointer = none := by
  cases pointer with
  | none => simp [chooseDefault]
  | some identity =>
    simp only [chooseDefault]
    cases index? keystores identity with
    | none => simp
    | some index => simp

/-! ## Construction -/

theorem repeatedIdentity?_eq_repeated? (seen identities : List String) :
    repeatedIdentity? seen identities = ImageEntry.repeated? seen identities := by
  induction identities generalizing seen with
  | nil => rfl
  | cons first rest ih => rw [repeatedIdentity?, ImageEntry.repeated?, ih]

theorem repeatedIdentity?_eq_none_iff {identities : List String} :
    repeatedIdentity? [] identities = none ↔ identities.Nodup := by
  simp [repeatedIdentity?_eq_repeated?, ImageEntry.repeated?_eq_none_iff]

/-- The first identity that stood before, behind identities that differ. -/
theorem repeatedIdentity?_eq_some_iff {identities : List String} {identity : String} :
    repeatedIdentity? [] identities = some identity ↔
      ∃ before after, identities = before ++ identity :: after ∧ before.Nodup ∧
        identity ∈ before := by
  simp [repeatedIdentity?_eq_repeated?, ImageEntry.repeated?_eq_some_iff,
    ImageEntry.repeated?_eq_none_iff]

theorem outcome_ofKeystores (keystores : List KeyStore) (pointer : Option String) :
    (ofKeystores keystores pointer).outcome =
      match repeatedIdentity? [] (keystores.map (·.identity)) with
      | some identity => .error (.invalidKeystore identity .duplicateIdentity)
      | none => (chooseDefault keystores pointer).map (⟨keystores, ·⟩) := by
  rw [ofKeystores]
  cases repeatedIdentity? [] (keystores.map (·.identity)) with
  | some identity => rfl
  | none =>
    simp only [Traced.outcome_bind, Traced.outcome_ofExcept, Traced.outcome_reportAll,
      Traced.outcome_pure, Outcome.ok_bind]
    cases chooseDefault keystores pointer with
    | ok index => rfl
    | error cause => rfl

theorem outcome_ofKeystores_eq_ok_iff {pointer : Option String} {repository : Repository} :
    (ofKeystores keystores pointer).outcome = .ok repository ↔
      (keystores.map (·.identity)).Nodup ∧ repository.keystores = keystores ∧
        chooseDefault repository.keystores pointer = .ok repository.defaultIndex := by
  rw [outcome_ofKeystores, ← repeatedIdentity?_eq_none_iff]
  cases repeatedIdentity? [] (keystores.map (·.identity)) with
  | some identity => simp
  | none =>
    rw [Outcome.map_eq_ok]
    constructor
    · intro h
      obtain ⟨index, hindex, rfl⟩ := h
      exact ⟨rfl, rfl, hindex⟩
    · intro h
      obtain ⟨-, rfl, hindex⟩ := h
      exact ⟨repository.defaultIndex, hindex, rfl⟩

theorem outcome_ofKeystores_eq_error_iff {pointer : Option String} :
    (ofKeystores keystores pointer).outcome = .error e ↔
      (∃ before identity after, keystores.map (·.identity) = before ++ identity :: after ∧
        before.Nodup ∧ identity ∈ before ∧ e = .invalidKeystore identity .duplicateIdentity) ∨
      (keystores.map (·.identity)).Nodup ∧ chooseDefault keystores pointer = .error e := by
  rw [outcome_ofKeystores]
  cases hrepeated : repeatedIdentity? [] (keystores.map (·.identity)) with
  | some identity =>
    have hrepeats : ¬(keystores.map (·.identity)).Nodup := by
      rw [← repeatedIdentity?_eq_none_iff, hrepeated]
      exact nofun
    constructor
    · intro h
      obtain ⟨before, after, hsplit, hnodup, hmem⟩ := repeatedIdentity?_eq_some_iff.mp hrepeated
      exact .inl ⟨before, identity, after, hsplit, hnodup, hmem, (Except.error.inj h).symm⟩
    · intro h
      rcases h with ⟨before, other, after, hsplit, hnodup, hmem, rfl⟩ | ⟨hdistinct, -⟩
      · have hother := repeatedIdentity?_eq_some_iff.mpr ⟨before, after, hsplit, hnodup, hmem⟩
        rw [Option.some.inj (hrepeated.symm.trans hother)]
      · exact absurd hdistinct hrepeats
  | none =>
    have hdistinct := repeatedIdentity?_eq_none_iff.mp hrepeated
    constructor
    · intro h
      refine .inr ⟨hdistinct, ?_⟩
      cases hdefault : chooseDefault keystores pointer with
      | ok index =>
        rw [hdefault] at h
        cases h
      | error cause =>
        rw [hdefault] at h
        cases h
        rfl
    · intro h
      rcases h with ⟨before, identity, after, hsplit, hnodup, hmem, -⟩ | ⟨-, hdefault⟩
      · cases hrepeated.symm.trans
          (repeatedIdentity?_eq_some_iff.mpr ⟨before, after, hsplit, hnodup, hmem⟩)
      · rw [hdefault]
        rfl

theorem outcome_load (config : KeystoresConfig) (source : ImageSource) :
    (load config source).outcome = (loadAll source config.keystores).outcome >>= fun keystores =>
      (ofKeystores keystores config.default).outcome :=
  Traced.outcome_bind _ _

/-- The first defect of a configuration: a keystore that is not to be had, else an identity that is
there twice, else a default that is not there. -/
inductive Defect (config : KeystoresConfig) (source : ImageSource) : KeyError → Prop where
  | keystore {e : KeyError} (hrefusal : FirstRefusal source config.keystores e) :
    Defect config source e
  | repeatedIdentity {before after : List String} {identity : String}
      (hyields : ∀ entry ∈ config.keystores, ∃ keystore, entry.Yields source keystore)
      (hsplit : config.keystores.map (·.identity) = before ++ identity :: after)
      (hdistinct : before.Nodup) (hrepeated : identity ∈ before) :
    Defect config source (.invalidKeystore identity .duplicateIdentity)
  | unknownDefault {identity : String}
      (hyields : ∀ entry ∈ config.keystores, ∃ keystore, entry.Yields source keystore)
      (hdistinct : (config.keystores.map (·.identity)).Nodup)
      (hdefault : config.default = some identity)
      (hunknown : identity ∉ config.keystores.map (·.identity)) :
    Defect config source (.invalidKeystore identity .unknownDefault)

variable {config : KeystoresConfig} {repository : Repository}

theorem outcome_load_eq_ok_iff :
    (load config source).outcome = .ok repository ↔
      List.Forall₂ (KeystoreConfig.Yields source) config.keystores repository.keystores ∧
        (config.keystores.map (·.identity)).Nodup ∧
        chooseDefault repository.keystores config.default = .ok repository.defaultIndex := by
  simp only [outcome_load, Outcome.bind_eq_ok, outcome_loadAll_eq_ok_iff,
    outcome_ofKeystores_eq_ok_iff]
  constructor
  · intro h
    obtain ⟨keystores, hyields, hdistinct, rfl, hdefault⟩ := h
    exact ⟨hyields, map_identity_eq hyields ▸ hdistinct, hdefault⟩
  · intro h
    obtain ⟨hyields, hdistinct, hdefault⟩ := h
    exact ⟨_, hyields, (map_identity_eq hyields).symm ▸ hdistinct, rfl, hdefault⟩

theorem yields_of_forall₂ (h : List.Forall₂ (KeystoreConfig.Yields source) configs keystores) :
    ∀ entry ∈ configs, ∃ keystore, entry.Yields source keystore := by
  intro entry hmem
  obtain ⟨keystore, -, hyields⟩ := exists_related_of_mem h.flip hmem
  exact ⟨keystore, hyields⟩

theorem FirstRefusal.not_yields (h : FirstRefusal source configs e) :
    ¬∀ entry ∈ configs, ∃ keystore, entry.Yields source keystore := by
  intro hyields
  obtain ⟨before, refused, after, rfl, -, hrefused⟩ := h
  obtain ⟨keystore, hyield⟩ := hyields refused (List.mem_append_right _ List.mem_cons_self)
  exact hrefused.not_yields hyield

theorem outcome_load_eq_error_iff :
    (load config source).outcome = .error e ↔ Defect config source e := by
  rw [outcome_load]
  cases hall : (loadAll source config.keystores).outcome with
  | error cause =>
    have hrefusal := outcome_loadAll_eq_error_iff.mp hall
    constructor
    · intro h
      cases h
      exact .keystore hrefusal
    · intro h
      cases h with
      | keystore hother =>
        rw [← hall, outcome_loadAll_eq_error_iff.mpr hother]
        rfl
      | repeatedIdentity hyields => exact absurd hyields hrefusal.not_yields
      | unknownDefault hyields => exact absurd hyields hrefusal.not_yields
  | ok keystores =>
    have hforall := outcome_loadAll_eq_ok_iff.mp hall
    have hyields := yields_of_forall₂ hforall
    have hidentities := map_identity_eq hforall
    rw [Outcome.ok_bind, outcome_ofKeystores_eq_error_iff, chooseDefault_eq_error_iff, hidentities]
    constructor
    · intro h
      rcases h with ⟨before, identity, after, hsplit, hdistinct, hrepeated, rfl⟩ |
        ⟨hdistinct, identity, hdefault, hunknown, rfl⟩
      · exact .repeatedIdentity hyields hsplit hdistinct hrepeated
      · exact .unknownDefault hyields hdistinct hdefault hunknown
    · intro h
      cases h with
      | keystore hrefusal => exact absurd hyields hrefusal.not_yields
      | repeatedIdentity _ hsplit hdistinct hrepeated =>
        exact .inl ⟨_, _, _, hsplit, hdistinct, hrepeated, rfl⟩
      | unknownDefault _ hdistinct hdefault hunknown =>
        exact .inr ⟨hdistinct, _, hdefault, hunknown, rfl⟩

/-! ## The keystore of a provider -/

/-- The keystore that a provider with these defaults reads from. -/
def keystoreFor? (repository : Repository) (defaults : Defaults) : Option KeyStore :=
  match defaults.keystore with
  | some identity => repository.get? identity
  | none => repository.default

/-- What is reported of a keystore that is not there. -/
def absence (defaults : Defaults) : KeyError :=
  match defaults.keystore with
  | some identity => .invalidKeystore identity .notConfigured
  | none => .invalidKeystore "<default>" .noKeystores

theorem outcome_ofRepository (repository : Repository) (defaults : Defaults) :
    (TemplateProvider.ofRepository repository defaults).outcome =
      match repository.keystoreFor? defaults with
      | some keystore => .ok ⟨keystore, defaults⟩
      | none => .error (.key (absence defaults)) := by
  rw [TemplateProvider.ofRepository, keystoreFor?, absence]
  cases defaults.keystore with
  | some identity =>
    dsimp only
    cases repository.get? identity <;> rfl
  | none =>
    dsimp only
    cases repository.default <;> rfl

/-! ## Lookups agree -/

/-- A repository holds what is configured: the identities in their order, under each the keystore of
its configuration, and as default the keystore that the pointer names, or the first one. -/
structure Reflects (config : KeystoresConfig) (source : ImageSource) (repository : Repository) :
    Prop where
  identities_eq : repository.identities = config.keystores.map (·.identity)
  isSome_get?_iff : ∀ identity, (repository.get? identity).isSome = true ↔
    identity ∈ config.keystores.map (·.identity)
  get?_identity : ∀ entry ∈ config.keystores, ∃ keystore, entry.Yields source keystore ∧
    repository.get? entry.identity = some keystore
  default_eq : repository.default =
    (config.default <|> (config.keystores.map (·.identity)).head?).bind repository.get?
  default_eq_none_iff : repository.default = none ↔ config.keystores = []

theorem reflects_of_load (h : (load config source).outcome = .ok repository) :
    Reflects config source repository := by
  obtain ⟨hyields, hdistinct, hchosen⟩ := outcome_load_eq_ok_iff.mp h
  obtain ⟨hpointer, hdefault⟩ := default_of_chooseDefault hchosen
  have hidentities := map_identity_eq hyields
  rw [hidentities] at hpointer hdefault
  have hfound : ∀ identity, (repository.get? identity).isSome = true ↔
      identity ∈ config.keystores.map (·.identity) := fun identity =>
    isSome_find?_iff.trans (by rw [hidentities])
  refine ⟨hidentities, hfound, ?_, hdefault, ?_⟩
  · intro entry hmem
    obtain ⟨keystore, hyield⟩ := yields_of_forall₂ hyields entry hmem
    exact ⟨keystore, hyield,
      (find?_eq_some_iff_yields hyields hdistinct).mpr ⟨entry, hmem, rfl, hyield⟩⟩
  · constructor
    · intro hnone
      rw [Option.map_eq_none_iff.mp hnone, chooseDefault_eq_ok_none_iff] at hchosen
      rw [hchosen.1] at hyields
      exact List.forall₂_nil_right_iff.mp hyields
    · intro hnil
      rw [hnil, List.map_nil] at hpointer
      cases hpointed : config.default with
      | none => simp [hdefault, hpointed, hnil]
      | some identity => cases hpointer identity hpointed

/-- A repository is built exactly if every configuration is local and loads, no two have one
identity, and the default is among them.  Else construction fails with the first configuration that
yields no keystore, then the first identity that is there twice, then the unknown default.  What was
built finds what is configured, and a provider reads from the keystore that its defaults name or
from the default one. -/
theorem load_whole_or_first_defect (config : KeystoresConfig) (source : ImageSource) :
    ((∃ repository, (load config source).outcome = .ok repository) ↔
      (∀ entry ∈ config.keystores, ∃ keystore, entry.Yields source keystore) ∧
      (config.keystores.map (·.identity)).Nodup ∧
      ∀ identity, config.default = some identity →
        identity ∈ config.keystores.map (·.identity)) ∧
    (∀ e, (load config source).outcome = .error e ↔ Defect config source e) ∧
    ∀ repository, (load config source).outcome = .ok repository →
      Reflects config source repository ∧
      ∀ defaults, (TemplateProvider.ofRepository repository defaults).outcome =
        match repository.keystoreFor? defaults with
        | some keystore => .ok ⟨keystore, defaults⟩
        | none => .error (.key (absence defaults)) := by
  refine ⟨⟨?_, ?_⟩, fun e => outcome_load_eq_error_iff, ?_⟩
  · intro h
    obtain ⟨repository, hrepository⟩ := h
    obtain ⟨hyields, hdistinct, hchosen⟩ := outcome_load_eq_ok_iff.mp hrepository
    refine ⟨yields_of_forall₂ hyields, hdistinct, ?_⟩
    rw [← map_identity_eq hyields]
    exact (default_of_chooseDefault hchosen).1
  · intro h
    obtain ⟨hyields, hdistinct, hpointer⟩ := h
    cases hload : (load config source).outcome with
    | ok repository => exact ⟨repository, rfl⟩
    | error e =>
      cases outcome_load_eq_error_iff.mp hload with
      | keystore hrefusal => exact absurd hyields hrefusal.not_yields
      | repeatedIdentity _ hsplit _ hrepeated =>
        rw [hsplit, List.nodup_append] at hdistinct
        exact absurd rfl (hdistinct.2.2 _ hrepeated _ List.mem_cons_self)
      | unknownDefault _ _ hdefault hunknown => exact absurd (hpointer _ hdefault) hunknown
  · intro repository h
    exact ⟨reflects_of_load h, outcome_ofRepository repository⟩

/-- Two keystores from one image, the second of them the default.  A remote keystore is reported
before an identity that is there twice, and that before an unknown default. -/
theorem load_two_keystores :
    ∃ image,
      (ImageBuilder.mk 1 [⟨"k", .ofSecret [1, 2, 3], none⟩]).sealImage
        ⟨fun _ => 0, fun _ => ⟨1, by decide⟩⟩ ⟨"store"⟩ = .ok image ∧
      (∃ repository,
        (load ⟨[.ofLocal ⟨"main", "here", "cks", ⟨"store"⟩, false, []⟩,
            .ofLocal ⟨"backup", "there", "CKS", ⟨"store"⟩, true, []⟩], some "backup"⟩
          (fun _ => some image)).outcome = .ok repository ∧
        repository.identities = ["main", "backup"] ∧
        repository.default = repository.get? "backup" ∧
        (repository.get? "backup").isSome = true ∧ (repository.get? "other").isSome = false) ∧
      (load ⟨[.ofLocal ⟨"main", "here", "cks", ⟨"store"⟩, false, []⟩,
          .ofLocal ⟨"main", "there", "CKS", ⟨"store"⟩, true, []⟩, .ofRemote ⟨"vault", none⟩,
          .ofRemote ⟨"main", none⟩], some "other"⟩
        (fun _ => some image)).outcome = .error (.remoteKeystore "vault") ∧
      (load ⟨[.ofLocal ⟨"main", "here", "cks", ⟨"store"⟩, false, []⟩,
          .ofLocal ⟨"main", "there", "CKS", ⟨"store"⟩, true, []⟩], some "other"⟩
        (fun _ => some image)).outcome = .error (.invalidKeystore "main" .duplicateIdentity) := by
  have hencodes : ∀ entry ∈ [PendingEntry.mk "k" (.ofSecret [1, 2, 3]) none],
      ∃ encoded, entry.material.encode = .ok encoded := by
    simp only [List.forall_mem_singleton]
    exact ⟨_, rfl⟩
  obtain ⟨image, himage⟩ := (ImageBuilder.exists_sealImage_iff
    (ImageBuilder.mk 1 [⟨"k", .ofSecret [1, 2, 3], none⟩])
    ⟨fun _ => 0, fun _ => ⟨1, by decide⟩⟩ ⟨"store"⟩).mpr ⟨by decide, by decide, hencodes⟩
  have hyields : ∀ identity location type deprecated, Text.upperAscii type = imageFormat →
      ∃ keystore, KeystoreConfig.Yields (fun _ => some image)
        (.ofLocal ⟨identity, location, type, ⟨"store"⟩, deprecated, []⟩) keystore := by
    intro identity location type deprecated htype
    have hpasswords : LocalStore.HasPasswords
        ⟨identity, location, type, ⟨"store"⟩, deprecated, []⟩
        [⟨"k", .ofSecret [1, 2, 3], none⟩] := by
      simp [LocalStore.HasPasswords, LocalKeystoreConfig.keyConfig?]
    have hreadable : (KeyMaterial.ofSecret [1, 2, 3]).IsReadable :=
      KeyMaterial.isReadable_ofSecret_iff.mpr (by decide)
    obtain ⟨store, hstore⟩ := @LocalStore.exists_load_of_isReadable
      ⟨identity, location, type, ⟨"store"⟩, deprecated, []⟩ _ _ (fun _ => some image) _ himage htype
      rfl hpasswords (List.forall_mem_singleton.mpr hreadable)
    exact ⟨_, .loaded hstore⟩
  have hmain := hyields "main" "here" "cks" false (by decide)
  refine ⟨image, himage, ?_, ?_, ?_⟩
  · obtain ⟨hbuilt, -, hreflects⟩ := load_whole_or_first_defect
      ⟨[.ofLocal ⟨"main", "here", "cks", ⟨"store"⟩, false, []⟩,
        .ofLocal ⟨"backup", "there", "CKS", ⟨"store"⟩, true, []⟩], some "backup"⟩
      (fun _ => some image)
    obtain ⟨repository, hrepository⟩ := hbuilt.mpr ⟨by
      simp only [List.forall_mem_cons]
      exact ⟨hmain, hyields "backup" "there" "CKS" true (by decide), List.forall_mem_nil _⟩,
      by decide, by rintro _ ⟨rfl⟩; decide⟩
    obtain ⟨hholds, -⟩ := hreflects repository hrepository
    refine ⟨repository, hrepository, hholds.identities_eq, hholds.default_eq,
      (hholds.isSome_get?_iff "backup").mpr (by decide), ?_⟩
    rw [← Bool.not_eq_true, hholds.isSome_get?_iff "other"]
    decide
  · obtain ⟨-, hfails, -⟩ := load_whole_or_first_defect
      ⟨[.ofLocal ⟨"main", "here", "cks", ⟨"store"⟩, false, []⟩,
        .ofLocal ⟨"main", "there", "CKS", ⟨"store"⟩, true, []⟩, .ofRemote ⟨"vault", none⟩,
        .ofRemote ⟨"main", none⟩], some "other"⟩ (fun _ => some image)
    rw [hfails]
    refine .keystore ⟨[_, _], _, _, rfl, ?_, .remote⟩
    simp only [List.forall_mem_cons]
    exact ⟨hmain, hyields "main" "there" "CKS" true (by decide), List.forall_mem_nil _⟩
  · obtain ⟨-, hfails, -⟩ := load_whole_or_first_defect
      ⟨[.ofLocal ⟨"main", "here", "cks", ⟨"store"⟩, false, []⟩,
        .ofLocal ⟨"main", "there", "CKS", ⟨"store"⟩, true, []⟩], some "other"⟩
      (fun _ => some image)
    rw [hfails]
    refine @Defect.repeatedIdentity _ _ ["main"] [] _ ?_ rfl (by decide) (by decide)
    simp only [List.forall_mem_cons]
    exact ⟨hmain, hyields "main" "there" "CKS" true (by decide), List.forall_mem_nil _⟩

end Repository

end CipherVault
