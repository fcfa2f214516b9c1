import CipherVault.Text
/-!
# Maps from aliases

An association of values with aliases, kept in the order of the aliases' UTF-8 bytes.  The order is
part of the type, so a listing of the aliases is sorted and free of repetitions in every map.
-/

namespace CipherVault

/-- The order of aliases: bytewise over their UTF-8 form. -/
def aliasBefore (a b : String) : Bool :=
  decide (Utf8.encode a < Utf8.encode b)

structure AliasMap (α : Type) where
  entries : List (String × α)
  sorted : entries.Pairwise fun left right => aliasBefore left.1 right.1 = true

namespace AliasMap

variable {α : Type}

def empty : AliasMap α :=
  ⟨[], .nil⟩

/-- The entries before the place of an alias, then the alias itself, then the entries behind. -/
def insertEntry (keyAlias : String) (value : α) (entries : List (String × α)) : List (String × α) :=
  entries.filter (fun entry => aliasBefore entry.1 keyAlias) ++
    (keyAlias, value) :: entries.filter (fun entry => aliasBefore keyAlias entry.1)

theorem aliasBefore_trans {a b c : String} (hab : aliasBefore a b = true)
    (hbc : aliasBefore b c = true) : aliasBefore a c = true := by
  simp only [aliasBefore, decide_eq_true_eq] at *
  exact List.lt_trans hab hbc

theorem insertEntry_sorted (keyAlias : String) (value : α) {entries : List (String × α)}
    (h : entries.Pairwise fun left right => aliasBefore left.1 right.1 = true) :
    (insertEntry keyAlias value entries).Pairwise
      fun left right => aliasBefore left.1 right.1 = true := by
  rw [insertEntry, List.pairwise_append, List.pairwise_cons]
  refine ⟨h.filter _, ⟨?_, h.filter _⟩, ?_⟩
  · intro right hright
    exact (List.mem_filter.mp hright).2
  · intro left hleft right hright
    have hbefore := (List.mem_filter.mp hleft).2
    rcases List.mem_cons.mp hright with rfl | hbehind
    · exact hbefore
    · exact aliasBefore_trans hbefore (List.mem_filter.mp hbehind).2

/-- The map with `alias` standing for `value`, whatever it stood for before. -/
def insert (map : AliasMap α) (keyAlias : String) (value : α) : AliasMap α :=
  ⟨insertEntry keyAlias value map.entries, insertEntry_sorted keyAlias value map.sorted⟩

def get? (map : AliasMap α) (keyAlias : String) : Option α :=
  map.entries.lookup keyAlias

def contains (map : AliasMap α) (keyAlias : String) : Bool :=
  (map.get? keyAlias).isSome

/-- The aliases in their order. -/
def aliases (map : AliasMap α) : List String :=
  map.entries.map (·.1)

def size (map : AliasMap α) : Nat :=
  map.entries.length

end AliasMap

end CipherVault
