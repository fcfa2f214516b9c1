import CipherVault.Proofs.Keystore.Store
import CipherVault.Proofs.Outcome
import CipherVault.Resolution
/-!
# What resolution finds

A resolution succeeds exactly if an algorithm is chosen and its key is found.  A key that names an
alias is the one that the keystore holds under the alias that was chosen.
-/

namespace CipherVault

/-- The parameters with algorithm and alias taken from `info` where they are not set. -/
def Parameters.fill (parameters : Parameters) (info : MetaInfo) : Parameters :=
  { parameters with
    algorithm := parameters.algorithm <|> some info.algorithm
    keyAlias := parameters.keyAlias <|> some info.keyAlias }

/-- Whether a parameter is set. -/
def Parameters.sets (parameters : Parameters) : Parameter → Bool
  | .algorithm => parameters.algorithm.isSome
  | .key => parameters.key.isSome
  | .keyAlias => parameters.keyAlias.isSome

theorem Parameters.mem_defined_iff {parameters : Parameters} {parameter : Parameter} :
    parameter ∈ parameters.defined ↔ parameters.sets parameter = true := by
  cases parameter with
  | algorithm => simp [defined, sets]
  | key => simp [defined, sets]
  | keyAlias => simp [defined, sets]

namespace Resolved

variable {store : KeyStore} {defaults : Defaults} {parameters : Parameters}
  {embedded : Option MetaInfo}

theorem chooseAlgorithm_eq (parameters : Parameters) (embedded : Option MetaInfo)
    (defaults : Defaults) :
    chooseAlgorithm parameters embedded defaults =
      (parameters.algorithm <|> embedded.map (·.algorithm) <|> defaults.algorithm) := by
  simp only [chooseAlgorithm, Parameters.mem_defined_iff]
  cases h : parameters.algorithm with
  | none => simp [Parameters.sets, h]
  | some algorithm => simp [Parameters.sets, h]

theorem chooseKey_eq (store : KeyStore) (parameters : Parameters) (embedded : Option MetaInfo)
    (defaults : Defaults) :
    chooseKey store parameters embedded defaults =
      match parameters.key with
      | some material => .ok ⟨material, .explicit⟩
      | none => storedKey store parameters embedded defaults := by
  simp only [chooseKey, Parameters.mem_defined_iff]
  cases h : parameters.key with
  | none => rfl
  | some material => simp [Parameters.sets, h]

theorem resolve_eq_ok_iff {resolved : Resolved} :
    resolve store defaults parameters embedded = .ok resolved ↔
      chooseAlgorithm parameters embedded defaults = some resolved.algorithm ∧
        chooseKey store parameters embedded defaults = .ok resolved.key := by
  rw [resolve]
  split
  · next hnone => simp [hnone]
  · next algorithm hsome =>
    rw [hsome, Outcome.map_eq_ok, Option.some.injEq]
    constructor
    · intro h
      obtain ⟨key, hkey, rfl⟩ := h
      exact ⟨rfl, hkey⟩
    · intro h
      obtain ⟨rfl, hkey⟩ := h
      exact ⟨resolved.key, hkey, rfl⟩

theorem lookUp_eq_ok_iff {keyAlias : String} {key : ResolvedKey} :
    lookUp store keyAlias = .ok key ↔
      ∃ found, store.find? keyAlias = some found ∧
        key = ⟨found.material, .stored keyAlias found.deprecated⟩ := by
  rw [lookUp]
  split
  · next found hfound =>
    simp only [Except.ok.injEq, hfound, Option.some.injEq, exists_eq_left',
      KeyStore.keyAlias_of_find? hfound]
    exact eq_comm
  · next hnone => simp [hnone]

/-- A key that names its alias is the keystore's own key under the chosen alias. -/
theorem chooseKey_stored {key : ResolvedKey} {keyAlias : String}
    (h : chooseKey store parameters embedded defaults = .ok key)
    (hstored : key.keyAlias? = some keyAlias) :
    chooseAlias parameters embedded defaults = some keyAlias ∧
      (store.find? keyAlias).map (·.material) = some key.material := by
  rw [chooseKey_eq] at h
  split at h
  · cases h
    cases hstored
  rw [storedKey] at h
  split at h
  · next chosen hchosen =>
    obtain ⟨found, hfound, rfl⟩ := lookUp_eq_ok_iff.mp h
    cases hstored
    rw [hchosen, hfound]
    exact ⟨rfl, rfl⟩
  · cases h

/-- Without parameters what is embedded decides, whatever the defaults say. -/
theorem resolve_embedded (defaults : Defaults) {info : MetaInfo} {material : KeyMaterial}
    (h : (store.find? info.keyAlias).map (·.material) = some material) :
    ∃ key : ResolvedKey, key.material = material ∧
      resolve store defaults {} (some info) = .ok ⟨info.algorithm, key⟩ := by
  obtain ⟨found, hfound, hmaterial⟩ := Option.map_eq_some_iff.mp h
  have hkey := lookUp_eq_ok_iff.mpr ⟨found, hfound, rfl⟩
  exact ⟨_, hmaterial, resolve_eq_ok_iff.mpr ⟨rfl, hkey⟩⟩

/-- An embedded alias without a key is not found, whatever the default alias is. -/
theorem resolve_embedded_missing (defaults : Defaults) {info : MetaInfo}
    (h : store.find? info.keyAlias = none) :
    resolve store defaults {} (some info) = .error (.keyNotFound info.keyAlias) := by
  have hkey : chooseKey store {} (some info) defaults = .error (.keyNotFound info.keyAlias) := by
    change lookUp store info.keyAlias = _
    rw [lookUp, h]
  change (chooseKey store {} (some info) defaults).map _ = _
  rw [hkey]
  rfl

/-- What is embedded acts as if it were set where nothing is set.  Then both parameters are there,
and no default is reached. -/
theorem resolve_some_eq_fill (store : KeyStore) (defaults other : Defaults)
    (parameters : Parameters) (info : MetaInfo) :
    resolve store defaults parameters (some info) =
      resolve store other (parameters.fill info) none := by
  have halgorithm : chooseAlgorithm parameters (some info) defaults =
      chooseAlgorithm (parameters.fill info) none other := by
    cases h : parameters.algorithm with
    | none => simp [chooseAlgorithm_eq, Parameters.fill, h]
    | some algorithm => simp [chooseAlgorithm_eq, Parameters.fill, h]
  have halias : chooseAlias parameters (some info) defaults =
      chooseAlias (parameters.fill info) none other := by
    cases h : parameters.keyAlias with
    | none => simp [chooseAlias, Parameters.fill, h]
    | some keyAlias => simp [chooseAlias, Parameters.fill, h]
  have hkey : (parameters.fill info).key = parameters.key := rfl
  rw [resolve, resolve, halgorithm, chooseKey_eq, chooseKey_eq, storedKey, storedKey, halias, hkey]

/-- An algorithm and a key that are set decide alone. -/
theorem resolve_explicit (store : KeyStore) (defaults : Defaults) (algorithm : String)
    (key : KeyMaterial) (iv : Option Bytes) (embedded : Option MetaInfo) :
    resolve store defaults { algorithm := some algorithm, key := some key, iv } embedded =
      .ok ⟨algorithm, ⟨key, .explicit⟩⟩ := rfl

end Resolved

end CipherVault
