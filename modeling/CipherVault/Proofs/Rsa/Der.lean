import CipherVault.Proofs.Bytes
import CipherVault.Rsa.Der
/-!
# DER elements are read as they are written

Lengths, elements and natural numbers are read back from their encoding, whatever follows it, and
from nothing else: each has one form, and what is read off the front of bytes is what was written
there.
-/

namespace CipherVault.Der

theorem byteLength_le_four {length : Nat} (h : length ≤ maxLength) :
    Bytes.byteLength length ≤ 4 :=
  Bytes.byteLength_le (Nat.lt_of_le_of_lt h (by decide))

/-- A length is read back from its shortest form. -/
theorem length?_lengthBytes_append {length : Nat} (h : length ≤ maxLength) (rest : Bytes) :
    length? (lengthBytes length ++ rest) = some (length, rest) := by
  by_cases hshort : length < 128
  · have hfirst : (UInt8.ofNat length).toNat = length :=
      UInt8.toNat_ofNat_of_lt' (Nat.lt_trans hshort (by decide))
    have hlow : UInt8.ofNat length < 128 := by
      rw [UInt8.lt_iff_toNat_lt, hfirst]
      exact hshort
    rw [lengthBytes, if_pos hshort, List.singleton_append, length?, if_pos hlow, hfirst]
  · have hcount := byteLength_le_four h
    have hfirst : (UInt8.ofNat (128 + (Bytes.digits length).length)).toNat =
        128 + (Bytes.digits length).length := by
      apply UInt8.toNat_ofNat_of_lt'
      rw [Bytes.length_digits]
      change _ < 256
      omega
    have hhigh : ¬UInt8.ofNat (128 + (Bytes.digits length).length) < 128 := by
      rw [UInt8.lt_iff_toNat_lt, hfirst]
      exact Nat.not_lt.mpr (Nat.le_add_right _ _)
    have hbytes : lengthBytes length =
        UInt8.ofNat (128 + (Bytes.digits length).length) :: Bytes.digits length := by
      rw [lengthBytes, if_neg hshort]
    rw [hbytes, List.cons_append, length?, if_neg hhigh]
    simp only [hfirst, Nat.add_sub_cancel_left, List.take_left, List.drop_left, Bytes.toNat_digits]
    rw [if_pos ⟨trivial, h, hbytes⟩]

/-- A length is read in its shortest form only. -/
theorem length?_eq_some_iff {length : Nat} {bs rest : Bytes} :
    length? bs = some (length, rest) ↔ length ≤ maxLength ∧ bs = lengthBytes length ++ rest := by
  constructor
  · intro h
    cases bs with
    | nil => cases h
    | cons first bs =>
      rw [length?] at h
      split at h
      · next hshort =>
        cases h
        have hshort : first.toNat < 128 := UInt8.lt_iff_toNat_lt.mp hshort
        have hbytes : lengthBytes first.toNat = [first] := by
          rw [lengthBytes, if_pos hshort, UInt8.ofNat_toNat]
        have hlength : first.toNat ≤ maxLength := by
          unfold maxLength
          omega
        exact ⟨hlength, by rw [hbytes, List.singleton_append]⟩
      · dsimp only at h
        split at h
        · next hlong =>
          -- The reader compares what it took with the form that is written.
          obtain ⟨-, hlength, hbytes⟩ := hlong
          rw [Option.some.injEq, Prod.mk.injEq] at h
          obtain ⟨rfl, rfl⟩ := h
          refine ⟨hlength, ?_⟩
          rw [hbytes, List.cons_append, List.take_append_drop]
        · cases h
  · rintro ⟨hlength, rfl⟩
    exact length?_lengthBytes_append hlength rest

variable {tag : Byte} {content bs rest : Bytes}

theorem element_eq_some_iff :
    element tag content = some bs ↔
      content.length ≤ maxLength ∧ bs = tag :: (lengthBytes content.length ++ content) := by
  rw [element]
  split
  · next h => simp [h, eq_comm]
  · next h => simp [h]

theorem element?_append (htag : isTag tag = true) (h : element tag content = some bs)
    (rest : Bytes) : element? (bs ++ rest) = some (tag, content, rest) := by
  obtain ⟨hlength, rfl⟩ := element_eq_some_iff.mp h
  rw [List.cons_append, element?, if_pos htag, List.append_assoc,
    length?_lengthBytes_append hlength]
  simp

theorem content?_append (htag : isTag tag = true) (h : element tag content = some bs)
    (rest : Bytes) : content? tag (bs ++ rest) = some (content, rest) := by
  simp [content?, element?_append htag h]

theorem sole?_element (htag : isTag tag = true) (h : element tag content = some bs) :
    sole? tag bs = some content := by
  have hcontent := content?_append htag h []
  rw [List.append_nil] at hcontent
  simp [sole?, hcontent]

theorem element?_eq_some_iff :
    element? bs = some (tag, content, rest) ↔
      isTag tag = true ∧ ∃ written, element tag content = some written ∧ bs = written ++ rest := by
  constructor
  · intro h
    cases bs with
    | nil => cases h
    | cons first bs =>
      rw [element?] at h
      split at h
      · next htag =>
        simp only [Option.bind_eq_bind, Option.bind_eq_some_iff] at h
        obtain ⟨⟨length, behind⟩, hlength, h⟩ := h
        obtain ⟨hmax, rfl⟩ := length?_eq_some_iff.mp hlength
        dsimp only at h
        split at h
        · next hle =>
          cases h
          have hcontent : (behind.take length).length = length := List.length_take_of_le hle
          refine ⟨htag, _, element_eq_some_iff.mpr ⟨hcontent.symm ▸ hmax, rfl⟩, ?_⟩
          rw [hcontent, List.cons_append, List.append_assoc, List.take_append_drop]
        · cases h
      · cases h
  · rintro ⟨htag, written, hwritten, rfl⟩
    exact element?_append htag hwritten rest

theorem content?_eq_some_iff (htag : isTag tag = true) :
    content? tag bs = some (content, rest) ↔
      ∃ written, element tag content = some written ∧ bs = written ++ rest := by
  constructor
  · intro h
    simp only [content?, Option.bind_eq_bind, Option.bind_eq_some_iff] at h
    obtain ⟨⟨found, content', rest'⟩, helement, h⟩ := h
    dsimp only at h
    split at h
    · next hfound =>
      cases h
      exact hfound ▸ (element?_eq_some_iff.mp helement).2
    · cases h
  · rintro ⟨written, hwritten, rfl⟩
    exact content?_append htag hwritten rest

theorem sole?_eq_some_iff (htag : isTag tag = true) :
    sole? tag bs = some content ↔ element tag content = some bs := by
  constructor
  · intro h
    simp only [sole?, Option.bind_eq_bind, Option.bind_eq_some_iff] at h
    obtain ⟨⟨content', rest⟩, hcontent, h⟩ := h
    dsimp only at h
    split at h
    · next hempty =>
      cases h
      obtain ⟨written, hwritten, rfl⟩ := (content?_eq_some_iff htag).mp hcontent
      rwa [List.isEmpty_iff.mp hempty, List.append_nil]
    · cases h
  · exact sole?_element htag

/-! ## Natural numbers -/

theorem toNat_naturalContent (n : Nat) : Bytes.toNat (naturalContent n) = n := by
  have hdigits := Bytes.toNat_digits n
  unfold naturalContent
  split
  · next hnil =>
    rw [hnil] at hdigits
    exact hdigits
  · next first rest hcons =>
    rw [hcons] at hdigits
    split
    · exact hdigits
    · rw [Bytes.toNat_cons, hdigits]
      simp

theorem natural?_append {n : Nat} (h : natural n = some bs) (rest : Bytes) :
    natural? (bs ++ rest) = some (n, rest) := by
  have hcontent := content?_append (by decide) h rest
  simp [natural?, hcontent, ofNaturalContent?, toNat_naturalContent]

theorem natural?_eq_some_iff {n : Nat} :
    natural? bs = some (n, rest) ↔ ∃ written, natural n = some written ∧ bs = written ++ rest := by
  constructor
  · intro h
    simp only [natural?, Option.bind_eq_bind, Option.bind_eq_some_iff] at h
    obtain ⟨⟨content, rest'⟩, hcontent, n', hn, h⟩ := h
    cases h
    simp only [ofNaturalContent?] at hn
    split at hn
    · next hspelled =>
      cases hn
      rw [natural, hspelled]
      exact (content?_eq_some_iff (by decide)).mp hcontent
    · cases hn
  · rintro ⟨written, hwritten, rfl⟩
    exact natural?_append hwritten rest

theorem naturals?_of_naturals {numbers : List Nat} (h : naturals numbers = some bs) :
    naturals? numbers.length bs = some numbers := by
  induction numbers generalizing bs with
  | nil =>
    cases h
    rfl
  | cons n numbers ih =>
    simp only [naturals, Option.bind_eq_bind, Option.bind_eq_some_iff] at h
    obtain ⟨first, hfirst, more, hmore, hbs⟩ := h
    cases hbs
    simp [naturals?, natural?_append hfirst, ih hmore]

theorem naturals?_eq_some_iff {count : Nat} {numbers : List Nat} :
    naturals? count bs = some numbers ↔ numbers.length = count ∧ naturals numbers = some bs := by
  constructor
  · intro h
    induction count generalizing bs numbers with
    | zero =>
      rw [naturals?] at h
      split at h
      · next hempty =>
        cases h
        rw [List.isEmpty_iff.mp hempty]
        exact ⟨rfl, rfl⟩
      · cases h
    | succ count ih =>
      simp only [naturals?, Option.bind_eq_bind, Option.bind_eq_some_iff] at h
      obtain ⟨⟨n, rest⟩, hfirst, more, hmore, h⟩ := h
      cases h
      obtain ⟨written, hwritten, rfl⟩ := natural?_eq_some_iff.mp hfirst
      obtain ⟨rfl, hrest⟩ := ih hmore
      refine ⟨rfl, ?_⟩
      simp only [naturals, hwritten, hrest, Option.bind_eq_bind, Option.bind_some]
  · rintro ⟨rfl, hwritten⟩
    exact naturals?_of_naturals hwritten

end CipherVault.Der
