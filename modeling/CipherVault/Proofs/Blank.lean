import CipherVault.Text
import Mathlib.Data.List.Forall2
import Mathlib.Data.List.TakeWhile
/-!
# What trimming and upper case leave of a text

Trimming loses white space only and does not notice what is added at the ends.  Letters have no part
in white space, so it makes no difference which of trimming and upper case comes first.
-/

namespace CipherVault.Text

variable {before after cs : List Char} {c : Char}

/-! ## Trimming -/

theorem mem_dropWhile (hc : isBlank c = false) (h : c ∈ cs) : c ∈ cs.dropWhile isBlank := by
  rw [← List.takeWhile_append_dropWhile (p := isBlank) (l := cs), List.mem_append] at h
  rcases h with htaken | hkept
  · rw [List.mem_takeWhile_imp htaken] at hc
    cases hc
  · exact hkept

/-- Trimming loses white space only. -/
theorem mem_trimChars (hc : isBlank c = false) (h : c ∈ cs) : c ∈ trimChars cs := by
  rw [trimChars, List.mem_reverse]
  apply mem_dropWhile hc
  rw [List.mem_reverse]
  exact mem_dropWhile hc h

theorem trimChars_append_blank (hafter : ∀ c ∈ after, isBlank c = true) (cs : List Char) :
    trimChars (cs ++ after) = trimChars cs := by
  have hreverse : ∀ c ∈ after.reverse, isBlank c = true := by simpa using hafter
  rw [trimChars, trimChars, List.dropWhile_append]
  split
  -- Nothing but white space was there before.
  · next hempty =>
    have hnone : after.dropWhile isBlank = [] := List.dropWhile_eq_nil_iff.mpr hafter
    rw [hnone, List.isEmpty_iff.mp hempty]
  · rw [List.reverse_append, List.dropWhile_append_of_pos hreverse]

/-- Trimming does not notice white space that is added at the ends. -/
theorem trimChars_between (hbefore : ∀ c ∈ before, isBlank c = true)
    (hafter : ∀ c ∈ after, isBlank c = true) (cs : List Char) :
    trimChars (before ++ cs ++ after) = trimChars cs := by
  rw [trimChars_append_blank hafter, trimChars, List.dropWhile_append_of_pos hbefore, trimChars]

theorem trim_between {before after : String} (hbefore : ∀ c ∈ before.toList, isBlank c = true)
    (hafter : ∀ c ∈ after.toList, isBlank c = true) (s : String) :
    trim (before ++ s ++ after) = trim s := by
  rw [trim, trim, String.toList_append, String.toList_append, trimChars_between hbefore hafter]

theorem trimChars_of_noBlank (h : ∀ c ∈ cs, isBlank c = false) : trimChars cs = cs := by
  have hkept : ∀ cs : List Char, (∀ c ∈ cs, isBlank c = false) → cs.dropWhile isBlank = cs := by
    intro cs hcs
    rw [List.dropWhile_eq_self_iff]
    intro hpos
    simp [hcs _ (List.getElem_mem hpos)]
  rw [trimChars, hkept cs h, hkept cs.reverse (by simpa using h), List.reverse_reverse]

/-- Trimming gives back what stands between white space, if it holds none itself. -/
theorem trim_surrounded {before core after : String}
    (hbefore : ∀ c ∈ before.toList, isBlank c = true)
    (hcore : ∀ c ∈ core.toList, isBlank c = false)
    (hafter : ∀ c ∈ after.toList, isBlank c = true) : trim (before ++ core ++ after) = core := by
  rw [trim_between hbefore hafter, trim, trimChars_of_noBlank hcore, String.ofList_toList]

/-! ## Upper case -/

/-- A character changes in upper case only if it is a lower-case letter of ASCII. -/
theorem toUpper_cases (c : Char) :
    c.toUpper = c ∨ 97 ≤ c.toNat ∧ c.toNat ≤ 122 ∧ c.toUpper.toNat + 32 = c.toNat := by
  by_cases hlower : 'a'.val ≤ c.val ∧ c.val ≤ 'z'.val
  · right
    have hval : c.toUpper.val = c.val + ('A'.val - 'a'.val) := by
      delta Char.toUpper
      rw [dif_pos hlower]
    rw [UInt32.le_iff_toNat_le, UInt32.le_iff_toNat_le] at hlower
    change 97 ≤ c.val.toNat ∧ c.val.toNat ≤ 122 at hlower
    have hupper : (c.val + ('A'.val - 'a'.val)).toNat = (c.val.toNat + 4294967264) % 4294967296 :=
      UInt32.toNat_add ..
    simp only [Char.toNat, hval, hupper]
    omega
  · exact .inl (dif_neg hlower)

theorem toUpper_toUpper (c : Char) : c.toUpper.toUpper = c.toUpper := by
  rcases toUpper_cases c.toUpper with hsame | hlower
  · exact hsame
  · rcases toUpper_cases c with hsame | hchanged
    · rw [hsame]
      exact hsame
    · omega

theorem isBlank_toUpper (c : Char) : isBlank c.toUpper = isBlank c := by
  rcases toUpper_cases c with hsame | ⟨hlow, hhigh, hupper⟩
  · rw [hsame]
  · have hletter : ∀ d : Char, 65 ≤ d.toNat → d.toNat ≤ 122 → isBlank d = false := by
      intro d hlow hhigh
      simp only [isBlank, Bool.or_eq_false_iff, Bool.and_eq_false_iff, decide_eq_false_iff_not,
        beq_eq_false_iff_ne]
      omega
    rw [hletter c (by omega) hhigh, hletter c.toUpper (by omega) (by omega)]

theorem trimChars_map_toUpper (cs : List Char) :
    trimChars (cs.map Char.toUpper) = (trimChars cs).map Char.toUpper := by
  have hblank : isBlank ∘ Char.toUpper = isBlank := funext isBlank_toUpper
  rw [trimChars, trimChars, List.dropWhile_map, hblank, ← List.map_reverse, List.dropWhile_map,
    hblank, ← List.map_reverse]

/-- Trimming and upper case can be exchanged. -/
theorem trim_upperAscii (s : String) : trim (upperAscii s) = upperAscii (trim s) := by
  rw [trim, upperAscii, String.toList_ofList, trimChars_map_toUpper, upperAscii, trim,
    String.toList_ofList]

/-- A character is itself or a letter of ASCII in the other case. -/
def Recases (c d : Char) : Prop :=
  d = c ∨ d = c.toUpper ∨ c = d.toUpper

instance (c d : Char) : Decidable (Recases c d) :=
  inferInstanceAs (Decidable (d = c ∨ d = c.toUpper ∨ c = d.toUpper))

theorem toUpper_eq_of_recases {c d : Char} (h : Recases c d) : d.toUpper = c.toUpper := by
  rcases h with rfl | rfl | rfl
  · rfl
  · exact toUpper_toUpper c
  · exact (toUpper_toUpper d).symm

theorem upperAscii_eq_of_recases {s recased : String}
    (h : List.Forall₂ Recases s.toList recased.toList) : upperAscii recased = upperAscii s := by
  have hmap : ∀ {cs ds : List Char}, List.Forall₂ Recases cs ds →
      ds.map Char.toUpper = cs.map Char.toUpper := by
    intro cs ds hrecased
    induction hrecased with
    | nil => rfl
    | cons hfirst _ ih => rw [List.map_cons, List.map_cons, toUpper_eq_of_recases hfirst, ih]
  rw [upperAscii, upperAscii, hmap h]

end CipherVault.Text
