import CipherVault.Proofs.Keystore.Lookup
import Mathlib.Data.List.Induction
import Mathlib.Data.List.Sort
/-!
# The last word on an alias

An application assembles a keystore by calls in any order.  What is found under an alias was given
by the last call that adds a key there, and a key without a deprecation mark of its own takes the
mark that the keystore was given last, be it before the key or after.  So neighbouring calls that
speak of different things can change places.
-/

namespace CipherVault

namespace AliasMap

variable {α : Type}

/-- A map is what it finds: its entries are sorted, so their order tells nothing. -/
theorem eq_of_get? {left right : AliasMap α}
    (h : ∀ keyAlias, left.get? keyAlias = right.get? keyAlias) : left = right := by
  have hmem : ∀ entry, entry ∈ left.entries ↔ entry ∈ right.entries := by
    rintro ⟨keyAlias, value⟩
    rw [← get?_eq_some_iff, ← get?_eq_some_iff, h]
  have : Std.Irrefl fun first second : String × α => aliasBefore first.1 second.1 = true :=
    ⟨fun _ h => ne_of_aliasBefore h rfl⟩
  have : Std.Antisymm fun first second : String × α => aliasBefore first.1 second.1 = true :=
    ⟨fun _ _ hfirst hsecond => absurd rfl (ne_of_aliasBefore (aliasBefore_trans hfirst hsecond))⟩
  have hentries : left.entries = right.entries := left.sorted.eq_of_mem_iff right.sorted hmem
  cases left
  cases right
  cases hentries
  rfl

/-- Insertions under two aliases do not depend on their order. -/
theorem insert_comm (map : AliasMap α) {first second : String} (h : first ≠ second)
    (value other : α) :
    (map.insert first value).insert second other =
      (map.insert second other).insert first value := by
  apply eq_of_get?
  intro keyAlias
  simp only [get?_insert]
  by_cases hfirst : keyAlias = first
  · have hsecond : keyAlias ≠ second := hfirst ▸ h
    simp [hfirst, h]
  · simp [hfirst]

end AliasMap

namespace StaticStore

namespace Call

/-- The key that a call adds under an alias. -/
def keyFor? (keyAlias : String) (call : Call) : Option StaticKey :=
  (call.entry?.filter (·.1 = keyAlias)).map Prod.snd

theorem mark?_of_entry {call : Call} {entry : String × StaticKey} (h : call.entry? = some entry) :
    call.mark? = none := by
  cases call with
  | markDeprecated deprecated => cases h
  | _ => rfl

end Call

variable {α : Type} {topic : Call → Option α} {calls : List Call} {call : Call} {word : α}
  {identity keyAlias : String}

/-- Of the calls that have something to say on a topic, the last one gives this word. -/
def LastWord (topic : Call → Option α) (calls : List Call) (word : α) : Prop :=
  ∃ before call after, calls = before ++ call :: after ∧ topic call = some word ∧
    ∀ later ∈ after, topic later = none

/-- The deprecation that a key with the given mark of its own, if any, is found with: without one it
follows the last mark of the keystore, which starts out not deprecated. -/
inductive Inherits (calls : List Call) : (own : Option Bool) → (deprecated : Bool) → Prop
  | own (deprecated : Bool) : Inherits calls (some deprecated) deprecated
  | fromStore {deprecated : Bool} (h : LastWord Call.mark? calls deprecated) :
    Inherits calls none deprecated
  | unmarked (h : ∀ call ∈ calls, call.mark? = none) : Inherits calls none false

/-! ## One call more -/

theorem not_lastWord_nil : ¬LastWord topic [] word := by
  rintro ⟨before, call, after, hcalls, -⟩
  exact absurd hcalls.symm (List.append_ne_nil_of_right_ne_nil before (List.cons_ne_nil call after))

/-- A further call has the last word, or leaves it to those before. -/
theorem lastWord_append_singleton :
    LastWord topic (calls ++ [call]) word ↔
      topic call = some word ∨ topic call = none ∧ LastWord topic calls word := by
  constructor
  · rintro ⟨before, spoken, after, hcalls, hword, hsilent⟩
    rcases List.eq_nil_or_concat after with rfl | ⟨after, last, rfl⟩
    · obtain ⟨-, hlast⟩ := List.append_inj' hcalls rfl
      obtain rfl := List.singleton_inj.mp hlast
      exact .inl hword
    · rw [List.concat_eq_append, ← List.cons_append, ← List.append_assoc] at hcalls
      obtain ⟨hbefore, hlast⟩ := List.append_inj' hcalls rfl
      obtain rfl := List.singleton_inj.mp hlast
      refine .inr ⟨hsilent call (by simp), before, spoken, after, hbefore, hword, ?_⟩
      intro later hmem
      exact hsilent later (by simp [hmem])
  · rintro (hword | ⟨hsilent, before, spoken, after, rfl, hword, hafter⟩)
    · exact ⟨calls, call, [], rfl, hword, nofun⟩
    · refine ⟨before, spoken, after ++ [call], by simp, hword, ?_⟩
      intro later hmem
      rcases List.mem_append.mp hmem with hmem | hmem
      · exact hafter later hmem
      · exact List.mem_singleton.mp hmem ▸ hsilent

/-- A further call marks the keystore, or leaves it with the mark from before. -/
theorem inherits_append_singleton {deprecated : Bool} :
    Inherits (calls ++ [call]) none deprecated ↔
      call.mark? = some deprecated ∨ call.mark? = none ∧ Inherits calls none deprecated := by
  constructor
  · intro h
    cases h with
    | fromStore hlast =>
      exact (lastWord_append_singleton.mp hlast).imp_right (And.imp_right .fromStore)
    | unmarked hsilent =>
      obtain ⟨hcalls, hcall⟩ := List.forall_mem_append.mp hsilent
      exact .inr ⟨hcall call (List.mem_singleton_self call), .unmarked hcalls⟩
  · rintro (hmark | ⟨hsilent, h⟩)
    · exact .fromStore (lastWord_append_singleton.mpr (.inl hmark))
    · cases h with
      | fromStore hlast => exact .fromStore (lastWord_append_singleton.mpr (.inr ⟨hsilent, hlast⟩))
      | unmarked hcalls =>
        exact .unmarked (List.forall_mem_append.mpr ⟨hcalls, List.forall_mem_singleton.mpr hsilent⟩)

theorem assemble_append (identity : String) (calls more : List Call) :
    assemble identity (calls ++ more) = more.foldl Call.apply (assemble identity calls) :=
  List.foldl_append

/-- A call changes what is found under the alias that it adds, and under no other. -/
theorem get?_apply (store : StaticStore) (call : Call) (keyAlias : String) :
    (call.apply store).keys.get? keyAlias =
      (call.keyFor? keyAlias).or (store.keys.get? keyAlias) := by
  rw [Call.keyFor?]
  cases hentry : call.entry? with
  | none =>
    rw [Call.apply_of_no_entry hentry]
    rfl
  | some entry =>
    obtain ⟨added, key⟩ := entry
    rw [Call.apply_of_entry hentry, AliasMap.get?_insert]
    by_cases hadded : added = keyAlias
    · simp [Option.filter_some, hadded]
    · simp [Option.filter_some, hadded, Ne.symm hadded]

theorem deprecated_apply (store : StaticStore) (call : Call) :
    (call.apply store).deprecated = call.mark?.getD store.deprecated := by
  cases hentry : call.entry? with
  | none => rw [Call.apply_of_no_entry hentry]
  | some entry =>
    rw [Call.apply_of_entry hentry, Call.mark?_of_entry hentry]
    rfl

/-- Two calls commute unless both mark the keystore or both add the same alias. -/
theorem apply_comm (store : StaticStore) {first second : Call}
    (h : first.keyAlias? ≠ second.keyAlias?) :
    second.apply (first.apply store) = first.apply (second.apply store) := by
  rw [Call.keyAlias?, Call.keyAlias?] at h
  cases hfirst : first.entry? with
  | none =>
    cases hsecond : second.entry? with
    | none => exact absurd (by rw [hfirst, hsecond]) h
    | some other =>
      simp only [Call.apply_of_no_entry hfirst, Call.apply_of_entry hsecond]
  | some entry =>
    cases hsecond : second.entry? with
    | none => simp only [Call.apply_of_entry hfirst, Call.apply_of_no_entry hsecond]
    | some other =>
      have hne : entry.1 ≠ other.1 := by
        rw [hfirst, hsecond] at h
        exact fun heq => h (congrArg some heq)
      simp only [Call.apply_of_entry hfirst, Call.apply_of_entry hsecond,
        store.keys.insert_comm hne]

/-! ## Any number of calls -/

/-- The keystore holds under an alias what the last call that adds the alias put there. -/
theorem get?_assemble_eq_some_iff {key : StaticKey} :
    (assemble identity calls).keys.get? keyAlias = some key ↔
      LastWord (Call.keyFor? keyAlias) calls key := by
  induction calls using List.reverseRecOn with
  | nil => exact iff_of_false nofun not_lastWord_nil
  | append_singleton calls call ih =>
    rw [assemble_append, List.foldl_cons, List.foldl_nil, get?_apply, lastWord_append_singleton,
      ← ih, Option.or_eq_some_iff]

/-- The keystore has the mark that it was given last. -/
theorem deprecated_assemble_eq_iff {deprecated : Bool} :
    (assemble identity calls).deprecated = deprecated ↔ Inherits calls none deprecated := by
  induction calls using List.reverseRecOn with
  | nil =>
    constructor
    · rintro rfl
      exact .unmarked nofun
    · intro h
      cases h with
      | fromStore hlast => exact absurd hlast not_lastWord_nil
      | unmarked => rfl
  | append_singleton calls call ih =>
    rw [assemble_append, List.foldl_cons, List.foldl_nil, deprecated_apply,
      inherits_append_singleton, ← ih]
    cases call.mark? with
    | none => simp
    | some mark => simp

theorem inherits_iff {own : Option Bool} {deprecated : Bool} :
    own.getD (assemble identity calls).deprecated = deprecated ↔
      Inherits calls own deprecated := by
  cases own with
  | none => exact deprecated_assemble_eq_iff
  | some flag =>
    constructor
    · rintro rfl
      exact .own flag
    · rintro ⟨⟩
      rfl

/-- What is found is the key of the last call that adds the alias, with its own mark or else with
that of the keystore as it is in the end. -/
theorem find?_assemble_eq_some_iff {found : AliasedKey} :
    (assemble identity calls).find? keyAlias = some found ↔
      found.keyAlias = keyAlias ∧
        ∃ own, LastWord (Call.keyFor? keyAlias) calls ⟨found.material, own⟩ ∧
          Inherits calls own found.deprecated := by
  obtain ⟨material, named, deprecated⟩ := found
  simp only [find?, Option.map_eq_some_iff, get?_assemble_eq_some_iff, AliasedKey.mk.injEq]
  constructor
  · rintro ⟨⟨_, own⟩, hlast, rfl, rfl, hmark⟩
    exact ⟨rfl, own, hlast, inherits_iff.mp hmark⟩
  · rintro ⟨rfl, own, hlast, hmark⟩
    exact ⟨⟨material, own⟩, hlast, rfl, rfl, inherits_iff.mpr hmark⟩

theorem assemble_swap (identity : String) (before after : List Call) {first second : Call}
    (h : first.keyAlias? ≠ second.keyAlias?) :
    assemble identity (before ++ first :: second :: after) =
      assemble identity (before ++ second :: first :: after) := by
  rw [assemble_append, assemble_append, List.foldl_cons, List.foldl_cons, apply_comm _ h]
  rfl

end StaticStore

/-- Whatever calls assemble a keystore: it lists the aliases that some call adds, and finds a key
under each of them.  The key is that of the last call that adds the alias; its deprecation is the
one that this call gives, and if it gives none, the last mark of the keystore anywhere among the
calls.  Two neighbouring calls that add different aliases, or of which one adds a key and the other
marks the keystore, assemble the same keystore in either order. -/
theorem StaticStore.last_word_decides (identity : String) (calls : List Call) :
    (∀ keyAlias, keyAlias ∈ (KeyStore.ofKeys (assemble identity calls)).aliases ↔
      ∃ call ∈ calls, call.keyAlias? = some keyAlias) ∧
    (∀ keyAlias, (∃ found,
      (KeyStore.ofKeys (assemble identity calls)).find? keyAlias = some found) ↔
        ∃ call ∈ calls, call.keyAlias? = some keyAlias) ∧
    (∀ keyAlias found,
      (KeyStore.ofKeys (assemble identity calls)).find? keyAlias = some found ↔
        found.keyAlias = keyAlias ∧
          ∃ own, LastWord (Call.keyFor? keyAlias) calls ⟨found.material, own⟩ ∧
            Inherits calls own found.deprecated) ∧
    ∀ before first second after, calls = before ++ first :: second :: after →
      first.keyAlias? ≠ second.keyAlias? →
      assemble identity (before ++ second :: first :: after) = assemble identity calls := by
  have hlisted : ∀ keyAlias, keyAlias ∈ (KeyStore.ofKeys (assemble identity calls)).aliases ↔
      ∃ call ∈ calls, call.keyAlias? = some keyAlias := by
    intro keyAlias
    exact mem_aliases_assemble.trans List.mem_filterMap
  refine ⟨hlisted, ?_, fun _ _ => find?_assemble_eq_some_iff, ?_⟩
  · intro keyAlias
    rw [← KeyStore.mem_aliases_iff, hlisted]
  · rintro before first second after rfl h
    exact (assemble_swap identity before after h).symm

/-- An alias that is added three times, with a mark of its own at first and without one in the end,
and two marks of the keystore. -/
def StaticStore.replacingCalls : List Call :=
  [.withDeprecatedKey "k" (.ofSecret [0]), .withKeyDeprecation "k" (.ofSecret [1]) false,
    .markDeprecated false, .withKey "k" (.ofSecret [2]), .withKey "l" (.ofSecret [3]),
    .markDeprecated true]

/-- The last key counts and the last mark, and the key that follows can come first. -/
theorem StaticStore.last_word_decides_replaced_key :
    (KeyStore.ofKeys (assemble "main" replacingCalls)).find? "k" =
        some ⟨.ofSecret [2], "k", true⟩ ∧
      assemble "main" [.withDeprecatedKey "k" (.ofSecret [0]),
          .withKeyDeprecation "k" (.ofSecret [1]) false, .markDeprecated false,
          .withKey "l" (.ofSecret [3]), .withKey "k" (.ofSecret [2]), .markDeprecated true] =
        assemble "main" replacingCalls := by
  obtain ⟨-, -, hfound, hswap⟩ := last_word_decides "main" replacingCalls
  have hkey : LastWord (Call.keyFor? "k") replacingCalls ⟨.ofSecret [2], none⟩ :=
    ⟨replacingCalls.take 3, _, _, rfl, rfl, by decide⟩
  have hmark : LastWord Call.mark? replacingCalls true :=
    ⟨replacingCalls.take 5, _, [], rfl, rfl, nofun⟩
  constructor
  · exact (hfound _ _).mpr ⟨rfl, none, hkey, .fromStore hmark⟩
  · exact hswap (replacingCalls.take 3) _ _ _ rfl (by decide)

end CipherVault
