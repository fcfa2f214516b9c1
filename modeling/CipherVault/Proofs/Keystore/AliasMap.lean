import CipherVault.Keystore.AliasMap
import CipherVault.Proofs.Utf8
/-!
# Looking up aliases

The order of aliases tells any two of them apart, so a map holds one value under an alias, and an
insertion changes what is found under its own alias only.
-/

namespace CipherVault

theorem aliasBefore_self (keyAlias : String) : aliasBefore keyAlias keyAlias = false := by
  rw [aliasBefore, decide_eq_false_iff_not]
  exact List.lt_irrefl _

theorem ne_of_aliasBefore {a b : String} (h : aliasBefore a b = true) : a ≠ b := by
  intro heq
  subst heq
  rw [aliasBefore_self] at h
  cases h

theorem aliasBefore_or_of_ne {a b : String} (h : a ≠ b) :
    aliasBefore a b = true ∨ aliasBefore b a = true := by
  simp only [aliasBefore, decide_eq_true_eq]
  by_cases hab : Utf8.encode a < Utf8.encode b
  · exact .inl hab
  · by_cases hba : Utf8.encode b < Utf8.encode a
    · exact .inr hba
    · exact absurd (Utf8.encode_injective (List.le_antisymm hba hab)) h

namespace AliasMap

variable {α : Type} {keyAlias other : String} {value found : α}

/-- An insertion leaves the entries of all other aliases. -/
theorem mem_insertEntry {entries : List (String × α)} :
    (other, found) ∈ insertEntry keyAlias value entries ↔
      (other = keyAlias ∧ found = value) ∨ (other ≠ keyAlias ∧ (other, found) ∈ entries) := by
  simp only [insertEntry, List.mem_append, List.mem_cons, List.mem_filter, Prod.mk.injEq]
  constructor
  · intro h
    rcases h with ⟨hmem, hbefore⟩ | ⟨rfl, rfl⟩ | ⟨hmem, hbehind⟩
    · exact .inr ⟨ne_of_aliasBefore hbefore, hmem⟩
    · exact .inl ⟨rfl, rfl⟩
    · exact .inr ⟨(ne_of_aliasBefore hbehind).symm, hmem⟩
  · intro h
    rcases h with ⟨rfl, rfl⟩ | ⟨hne, hmem⟩
    · exact .inr (.inl ⟨rfl, rfl⟩)
    · rcases aliasBefore_or_of_ne hne with hbefore | hbehind
      · exact .inl ⟨hmem, hbefore⟩
      · exact .inr (.inr ⟨hmem, hbehind⟩)

theorem get?_eq_some_iff {map : AliasMap α} :
    map.get? keyAlias = some value ↔ (keyAlias, value) ∈ map.entries := by
  obtain ⟨entries, hsorted⟩ := map
  simp only [get?]
  induction entries with
  | nil => simp
  | cons entry entries ih =>
    obtain ⟨first, held⟩ := entry
    obtain ⟨hfirst, hrest⟩ := List.pairwise_cons.mp hsorted
    rw [List.lookup_cons, List.mem_cons, Prod.mk.injEq]
    by_cases heq : keyAlias = first
    · subst heq
      have habsent : (keyAlias, value) ∉ entries := fun hmem =>
        ne_of_aliasBefore (hfirst _ hmem) rfl
      simp [habsent, eq_comm]
    · have hskip : (keyAlias == first) = false := beq_eq_false_iff_ne.mpr heq
      simp [hskip, heq, ih hrest]

theorem get?_insert (map : AliasMap α) (keyAlias other : String) (value : α) :
    (map.insert keyAlias value).get? other =
      if other = keyAlias then some value else map.get? other := by
  apply Option.ext
  intro found
  rw [get?_eq_some_iff]
  change (other, found) ∈ insertEntry keyAlias value map.entries ↔ _
  rw [mem_insertEntry]
  by_cases heq : other = keyAlias
  · simp [heq, eq_comm]
  · simp [heq, get?_eq_some_iff]

theorem mem_aliases {map : AliasMap α} :
    keyAlias ∈ map.aliases ↔ ∃ value, map.get? keyAlias = some value := by
  simp only [aliases, List.mem_map, get?_eq_some_iff]
  constructor
  · intro h
    obtain ⟨⟨_, value⟩, hmem, rfl⟩ := h
    exact ⟨value, hmem⟩
  · intro h
    obtain ⟨value, hmem⟩ := h
    exact ⟨(keyAlias, value), hmem, rfl⟩

theorem mem_aliases_insert {map : AliasMap α} :
    other ∈ (map.insert keyAlias value).aliases ↔ other = keyAlias ∨ other ∈ map.aliases := by
  rw [mem_aliases, mem_aliases, get?_insert]
  by_cases heq : other = keyAlias
  · simp [heq]
  · simp [heq]

/-- The aliases are listed in the order of their bytes, each once. -/
theorem pairwise_aliases (map : AliasMap α) :
    map.aliases.Pairwise fun left right => Utf8.encode left < Utf8.encode right := by
  rw [aliases, List.pairwise_map]
  exact map.sorted.imp of_decide_eq_true

@[simp]
theorem get?_empty : (empty : AliasMap α).get? keyAlias = none := rfl

end AliasMap

end CipherVault
