import CipherVault.Proofs.Resolution
/-!
# The precedence of parameters

What is set on a request comes before what is embedded in a template, and that before what is
configured.  The rules below say so without the chains that resolution runs through, and say what is
reported where no rule gives a value: first the algorithm, then the alias, then its key.
-/

namespace CipherVault

/-- The first that is there of a value that is set, one that is embedded and one that is
configured. -/
inductive Prevails {α : Type} : (request template configuration : Option α) → α → Prop
  | set (value : α) (template configuration : Option α) :
    Prevails (some value) template configuration value
  | embedded (value : α) (configuration : Option α) : Prevails none (some value) configuration value
  | configured (value : α) : Prevails none none (some value) value

section Prevails

variable {α : Type} {request template configuration : Option α}

theorem orElse_eq_some_iff_prevails {value : α} :
    (request <|> template <|> configuration) = some value ↔
      Prevails request template configuration value := by
  constructor
  · intro h
    cases request with
    | some set =>
      cases h
      exact .set _ _ _
    | none =>
      cases template with
      | some embedded =>
        cases h
        exact .embedded _ _
      | none =>
        cases configuration with
        | some configured =>
          cases h
          exact .configured _
        | none => cases h
  · intro h
    cases h <;> rfl

theorem Prevails.unique {value other : α} (h : Prevails request template configuration value)
    (hother : Prevails request template configuration other) : value = other :=
  Option.some.inj ((orElse_eq_some_iff_prevails.mpr h).symm.trans
    (orElse_eq_some_iff_prevails.mpr hother))

theorem orElse_eq_none_iff :
    (request <|> template <|> configuration) = none ↔
      request = none ∧ template = none ∧ configuration = none := by
  cases request <;> cases template <;> simp

end Prevails

/-! ## Requests of either direction -/

inductive CryptoRequest where
  | encryption (request : EncryptionRequest)
  | decryption (request : DecryptionRequest)

namespace CryptoRequest

def parameters : CryptoRequest → Parameters
  | encryption request => request.parameters
  | decryption request => request.parameters

/-- Requests that set the same algorithm, key and alias, whatever their directions, their data, the
providers that they are for and their initialization vectors are. -/
structure ChoosesLike (request other : CryptoRequest) : Prop where
  algorithm : request.parameters.algorithm = other.parameters.algorithm
  key : request.parameters.key = other.parameters.key
  keyAlias : request.parameters.keyAlias = other.parameters.keyAlias

end CryptoRequest

theorem Parameters.defined_eq_filter (parameters : Parameters) :
    parameters.defined = [.algorithm, .key, .keyAlias].filter parameters.sets := by
  obtain ⟨algorithm, key, keyAlias, provider, iv⟩ := parameters
  cases algorithm <;> cases key <;> cases keyAlias <;> rfl

namespace Resolved

variable {store : KeyStore} {defaults : Defaults} {parameters : Parameters}
  {embedded : Option MetaInfo}

/-! ## The rules -/

/-- The rules by which a key is found. -/
inductive FindsKey (store : KeyStore) (defaults : Defaults) (parameters : Parameters)
    (embedded : Option MetaInfo) : Except CipherError ResolvedKey → Prop
  | explicit {material : KeyMaterial} (hkey : parameters.key = some material) :
    FindsKey store defaults parameters embedded (.ok ⟨material, .explicit⟩)
  | noAlias (hkey : parameters.key = none) (hset : parameters.keyAlias = none)
      (hembedded : embedded = none) (hconfigured : defaults.keyAlias = none) :
    FindsKey store defaults parameters embedded (.error (.missingDefault .keyAlias))
  | unknownAlias {keyAlias : String} (hkey : parameters.key = none)
      (halias : Prevails parameters.keyAlias (embedded.map (·.keyAlias)) defaults.keyAlias keyAlias)
      (hmissing : store.find? keyAlias = none) :
    FindsKey store defaults parameters embedded (.error (.keyNotFound keyAlias))
  | stored {keyAlias : String} {found : AliasedKey} (hkey : parameters.key = none)
      (halias : Prevails parameters.keyAlias (embedded.map (·.keyAlias)) defaults.keyAlias keyAlias)
      (hfound : store.find? keyAlias = some found) :
    FindsKey store defaults parameters embedded
      (.ok ⟨found.material, .stored keyAlias found.deprecated⟩)

/-- The rules of resolution.  Without an algorithm no key is looked for. -/
inductive Resolves (store : KeyStore) (defaults : Defaults) (parameters : Parameters)
    (embedded : Option MetaInfo) : Except CipherError Resolved → Prop
  | noAlgorithm (hset : parameters.algorithm = none) (hembedded : embedded = none)
      (hconfigured : defaults.algorithm = none) :
    Resolves store defaults parameters embedded (.error (.missingDefault .algorithm))
  | noKey {algorithm : String} {e : CipherError}
      (halgorithm : Prevails parameters.algorithm (embedded.map (·.algorithm)) defaults.algorithm
        algorithm)
      (hkey : FindsKey store defaults parameters embedded (.error e)) :
    Resolves store defaults parameters embedded (.error e)
  | both {algorithm : String} {key : ResolvedKey}
      (halgorithm : Prevails parameters.algorithm (embedded.map (·.algorithm)) defaults.algorithm
        algorithm)
      (hkey : FindsKey store defaults parameters embedded (.ok key)) :
    Resolves store defaults parameters embedded (.ok ⟨algorithm, key⟩)

/-! ## Resolution follows the rules -/

theorem chooseAlias_eq_some_iff {keyAlias : String} :
    chooseAlias parameters embedded defaults = some keyAlias ↔
      Prevails parameters.keyAlias (embedded.map (·.keyAlias)) defaults.keyAlias keyAlias :=
  orElse_eq_some_iff_prevails

theorem chooseAlias_eq_none_iff :
    chooseAlias parameters embedded defaults = none ↔
      parameters.keyAlias = none ∧ embedded = none ∧ defaults.keyAlias = none := by
  rw [chooseAlias, orElse_eq_none_iff, Option.map_eq_none_iff]

theorem chooseAlgorithm_eq_some_iff {algorithm : String} :
    chooseAlgorithm parameters embedded defaults = some algorithm ↔
      Prevails parameters.algorithm (embedded.map (·.algorithm)) defaults.algorithm algorithm := by
  rw [chooseAlgorithm_eq, orElse_eq_some_iff_prevails]

theorem chooseAlgorithm_eq_none_iff :
    chooseAlgorithm parameters embedded defaults = none ↔
      parameters.algorithm = none ∧ embedded = none ∧ defaults.algorithm = none := by
  rw [chooseAlgorithm_eq, orElse_eq_none_iff, Option.map_eq_none_iff]

theorem findsKey_chooseKey (store : KeyStore) (defaults : Defaults) (parameters : Parameters)
    (embedded : Option MetaInfo) :
    FindsKey store defaults parameters embedded
      (chooseKey store parameters embedded defaults) := by
  rw [chooseKey_eq]
  split
  · next material hkey => exact .explicit hkey
  next hkey =>
  rw [storedKey]
  split
  · next keyAlias hchosen =>
    have halias := chooseAlias_eq_some_iff.mp hchosen
    cases hfound : store.find? keyAlias with
    | some found =>
      rw [lookUp_eq_ok_iff.mpr ⟨found, hfound, rfl⟩]
      exact .stored hkey halias hfound
    | none =>
      rw [lookUp, hfound]
      exact .unknownAlias hkey halias hfound
  · next hnone =>
    obtain ⟨hset, hembedded, hconfigured⟩ := chooseAlias_eq_none_iff.mp hnone
    exact .noAlias hkey hset hembedded hconfigured

/-- The rules leave one key or error. -/
theorem chooseKey_eq_of_findsKey {outcome : Except CipherError ResolvedKey}
    (h : FindsKey store defaults parameters embedded outcome) :
    chooseKey store parameters embedded defaults = outcome := by
  rw [chooseKey_eq]
  cases h with
  | explicit hkey => rw [hkey]
  | noAlias hkey hset hembedded hconfigured =>
    simp only [hkey, storedKey, chooseAlias_eq_none_iff.mpr ⟨hset, hembedded, hconfigured⟩]
  | unknownAlias hkey halias hmissing =>
    simp only [hkey, storedKey, chooseAlias_eq_some_iff.mpr halias, lookUp, hmissing]
  | stored hkey halias hfound =>
    simp only [hkey, storedKey, chooseAlias_eq_some_iff.mpr halias]
    exact lookUp_eq_ok_iff.mpr ⟨_, hfound, rfl⟩

theorem chooseKey_eq_iff {outcome : Except CipherError ResolvedKey} :
    chooseKey store parameters embedded defaults = outcome ↔
      FindsKey store defaults parameters embedded outcome :=
  ⟨fun h => h ▸ findsKey_chooseKey _ _ _ _, chooseKey_eq_of_findsKey⟩

theorem FindsKey.unique {outcome other : Except CipherError ResolvedKey}
    (h : FindsKey store defaults parameters embedded outcome)
    (hother : FindsKey store defaults parameters embedded other) : outcome = other :=
  (chooseKey_eq_of_findsKey h).symm.trans (chooseKey_eq_of_findsKey hother)

theorem resolves_resolve (store : KeyStore) (defaults : Defaults) (parameters : Parameters)
    (embedded : Option MetaInfo) :
    Resolves store defaults parameters embedded (resolve store defaults parameters embedded) := by
  rw [resolve]
  split
  · next hnone =>
    obtain ⟨hset, hembedded, hconfigured⟩ := chooseAlgorithm_eq_none_iff.mp hnone
    exact .noAlgorithm hset hembedded hconfigured
  · next algorithm hsome =>
    have halgorithm := chooseAlgorithm_eq_some_iff.mp hsome
    cases hkey : chooseKey store parameters embedded defaults with
    | ok key => exact .both halgorithm (chooseKey_eq_iff.mp hkey)
    | error e => exact .noKey halgorithm (chooseKey_eq_iff.mp hkey)

theorem resolve_eq_iff {outcome : Except CipherError Resolved} :
    resolve store defaults parameters embedded = outcome ↔
      Resolves store defaults parameters embedded outcome := by
  constructor
  · intro h
    exact h ▸ resolves_resolve _ _ _ _
  · intro h
    rw [resolve]
    cases h with
    | noAlgorithm hset hembedded hconfigured =>
      rw [chooseAlgorithm_eq_none_iff.mpr ⟨hset, hembedded, hconfigured⟩]
    | noKey halgorithm hkey =>
      rw [chooseAlgorithm_eq_some_iff.mpr halgorithm, chooseKey_eq_iff.mpr hkey]
      rfl
    | both halgorithm hkey =>
      rw [chooseAlgorithm_eq_some_iff.mpr halgorithm, chooseKey_eq_iff.mpr hkey]
      rfl

theorem Resolves.unique {outcome other : Except CipherError Resolved}
    (h : Resolves store defaults parameters embedded outcome)
    (hother : Resolves store defaults parameters embedded other) : outcome = other :=
  (resolve_eq_iff.mpr h).symm.trans (resolve_eq_iff.mpr hother)

theorem resolves_ok_iff {resolved : Resolved} :
    Resolves store defaults parameters embedded (.ok resolved) ↔
      Prevails parameters.algorithm (embedded.map (·.algorithm)) defaults.algorithm
        resolved.algorithm ∧
      FindsKey store defaults parameters embedded (.ok resolved.key) := by
  constructor
  · intro h
    cases h with
    | both halgorithm hkey => exact ⟨halgorithm, hkey⟩
  · rintro ⟨halgorithm, hkey⟩
    exact .both halgorithm hkey

/-- Under a key that is set no rule asks the keystore. -/
theorem resolve_eq_of_isSome_key (hkey : parameters.key.isSome = true) (other : KeyStore) :
    resolve store defaults parameters embedded = resolve other defaults parameters embedded := by
  obtain ⟨material, hmaterial⟩ := Option.isSome_iff_exists.mp hkey
  have hstore : ∀ store : KeyStore,
      chooseKey store parameters embedded defaults = .ok ⟨material, .explicit⟩ :=
    fun _ => chooseKey_eq_of_findsKey (.explicit hmaterial)
  rw [resolve, resolve, hstore, hstore]

theorem resolve_eq_of_choosesLike {request other : CryptoRequest} (h : request.ChoosesLike other) :
    resolve store defaults request.parameters embedded =
      resolve store defaults other.parameters embedded := by
  have halias : chooseAlias request.parameters embedded defaults =
      chooseAlias other.parameters embedded defaults := by
    rw [chooseAlias, chooseAlias, h.keyAlias]
  have hkey : chooseKey store request.parameters embedded defaults =
      chooseKey store other.parameters embedded defaults := by
    rw [chooseKey_eq, chooseKey_eq, storedKey, storedKey, halias, h.key]
  rw [resolve, resolve, chooseAlgorithm_eq, chooseAlgorithm_eq, h.algorithm, hkey]

theorem defined_eq_of_choosesLike {request other : CryptoRequest} (h : request.ChoosesLike other) :
    request.parameters.defined = other.parameters.defined := by
  rw [Parameters.defined, Parameters.defined, h.algorithm, h.key, h.keyAlias]

/-- A request of either direction resolves as the rules say, over every keystore if it sets a key,
and as every request does that sets the same algorithm, key and alias.  What it is said to define is
what it sets. -/
theorem resolution_follows_precedence (store : KeyStore) (defaults : Defaults)
    (request : CryptoRequest) (embedded : Option MetaInfo) :
    (∀ outcome, resolve store defaults request.parameters embedded = outcome ↔
      Resolves store defaults request.parameters embedded outcome) ∧
    (request.parameters.key.isSome = true → ∀ other : KeyStore,
      resolve store defaults request.parameters embedded =
        resolve other defaults request.parameters embedded) ∧
    (∀ other : CryptoRequest, request.ChoosesLike other →
      resolve store defaults request.parameters embedded =
        resolve store defaults other.parameters embedded ∧
      request.parameters.defined = other.parameters.defined) ∧
    request.parameters.defined =
      [.algorithm, .key, .keyAlias].filter request.parameters.sets := by
  refine ⟨fun outcome => resolve_eq_iff, resolve_eq_of_isSome_key, ?_,
    Parameters.defined_eq_filter _⟩
  intro other h
  exact ⟨resolve_eq_of_choosesLike h, defined_eq_of_choosesLike h⟩

/-- A keystore with the alias that a template embeds and the one that is configured. -/
def twoKeys : KeyStore :=
  .ofKeys (((StaticStore.empty "main").insert "embedded" (.ofSecret [1]) (some true)).insert
    "configured" (.ofSecret [2]))

/-- An alias that is set and missing hides the two that are there; where none is set the one that is
embedded prevails.  Under a key that is set the keystore does not matter, nor do the direction, the
data, the provider and the vector. -/
theorem resolution_follows_precedence_two_keys :
    resolve twoKeys ⟨some "aes", some "configured", none⟩ { keyAlias := some "gone" }
        (some ⟨"rsa", "embedded"⟩) = .error (.keyNotFound "gone") ∧
    resolve twoKeys ⟨some "aes", some "configured", none⟩ {} (some ⟨"rsa", "embedded"⟩) =
      .ok ⟨"rsa", ⟨.ofSecret [1], .stored "embedded" true⟩⟩ ∧
    resolve twoKeys ⟨some "aes", none, none⟩ { key := some (.ofSecret [3]) } none =
      resolve (.ofKeys (.empty "other")) ⟨some "aes", none, none⟩
        { key := some (.ofSecret [3]), provider := some "v2c", iv := some [0] } none := by
  have hunknown : twoKeys.find? "gone" = none := by decide
  have hfound : twoKeys.find? "embedded" = some ⟨.ofSecret [1], "embedded", true⟩ := by decide
  obtain ⟨hgone, -⟩ := resolution_follows_precedence twoKeys ⟨some "aes", some "configured", none⟩
    (.encryption ⟨[104, 105], { keyAlias := some "gone" }⟩) (some ⟨"rsa", "embedded"⟩)
  obtain ⟨hembedded, -⟩ := resolution_follows_precedence twoKeys
    ⟨some "aes", some "configured", none⟩ (.decryption ⟨[104, 105], {}⟩) (some ⟨"rsa", "embedded"⟩)
  obtain ⟨-, hstore, halike, -⟩ := resolution_follows_precedence twoKeys ⟨some "aes", none, none⟩
    (.decryption ⟨[], { key := some (.ofSecret [3]), provider := some "v2c", iv := some [0] }⟩) none
  refine ⟨?_, ?_, ?_⟩
  · exact (hgone _).mpr (.noKey (.embedded _ _) (.unknownAlias rfl (.set _ _ _) hunknown))
  · exact (hembedded _).mpr (.both (.embedded _ _) (.stored rfl (.embedded _ _) hfound))
  · have hsame := halike (.encryption ⟨[104, 105], { key := some (.ofSecret [3]) }⟩) ⟨rfl, rfl, rfl⟩
    exact hsame.1.symm.trans (hstore rfl _)

end Resolved

end CipherVault
