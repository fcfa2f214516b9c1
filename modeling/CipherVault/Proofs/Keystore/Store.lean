import CipherVault.Keystore.Store
import CipherVault.Proofs.Keystore.AliasMap
/-!
# Looking up keys

A keystore finds a key under the aliases that it lists and under no other, and reports the alias
that was asked for: a loaded key because it stands under the alias that it names.
-/

namespace CipherVault

namespace LocalKeys

variable {keys : LocalKeys} {keyAlias : String} {key : LocalKey}

theorem keyAlias_of_get? (h : keys.get? keyAlias = some key) : key.keyAlias = keyAlias :=
  keys.ownAlias (keyAlias, key) (AliasMap.get?_eq_some_iff.mp h)

theorem get?_add (keys : LocalKeys) (key : LocalKey) (other : String) :
    (keys.add key).get? other = if other = key.keyAlias then some key else keys.get? other :=
  keys.get?_insert key.keyAlias other key

theorem mem_aliases_add :
    keyAlias ∈ (keys.add key).aliases ↔ keyAlias = key.keyAlias ∨ keyAlias ∈ keys.aliases :=
  AliasMap.mem_aliases_insert

@[simp]
theorem get?_empty : empty.get? keyAlias = none := rfl

end LocalKeys

namespace KeyStore

variable {store : KeyStore} {keyAlias : String} {kind : KeyKind} {material : KeyMaterial}
  {found : AliasedKey}

/-- Keystores report a key under the alias that it was asked for by. -/
theorem keyAlias_of_find? (h : store.find? keyAlias = some found) : found.keyAlias = keyAlias := by
  cases store with
  | ofImage store =>
    obtain ⟨key, hkey, rfl⟩ := Option.map_eq_some_iff.mp h
    exact LocalKeys.keyAlias_of_get? hkey
  | ofKeys store =>
    obtain ⟨key, _, rfl⟩ := Option.map_eq_some_iff.mp h
    rfl

theorem mem_aliases_iff :
    keyAlias ∈ store.aliases ↔ ∃ found, store.find? keyAlias = some found := by
  cases store with
  | ofImage store =>
    simp only [aliases, find?, LocalStore.find?, AliasMap.mem_aliases, Option.map_eq_some_iff]
    exact ⟨fun ⟨key, hkey⟩ => ⟨_, key, hkey, rfl⟩, fun ⟨_, key, hkey, _⟩ => ⟨key, hkey⟩⟩
  | ofKeys store =>
    simp only [aliases, find?, StaticStore.find?, AliasMap.mem_aliases, Option.map_eq_some_iff]
    exact ⟨fun ⟨key, hkey⟩ => ⟨_, key, hkey, rfl⟩, fun ⟨_, key, hkey, _⟩ => ⟨key, hkey⟩⟩

theorem pairwise_aliases (store : KeyStore) :
    store.aliases.Pairwise fun left right => Utf8.encode left < Utf8.encode right := by
  cases store with
  | ofImage store => exact store.keys.pairwise_aliases
  | ofKeys store => exact store.keys.pairwise_aliases

theorem findOfKind?_eq_some_iff :
    store.findOfKind? keyAlias kind = some material ↔
      ∃ found, store.find? keyAlias = some found ∧ found.material.kind = kind ∧
        found.material = material := by
  simp only [findOfKind?, Option.map_eq_some_iff, Option.filter_eq_some_iff, decide_eq_true_eq,
    and_assoc]

end KeyStore

end CipherVault
