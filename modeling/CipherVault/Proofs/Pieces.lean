import CipherVault.Bytes
/-!
# Cutting and joining

The pieces of a byte string join to it.  All of them but the last are of the given size, so the
number of pieces depends on the length alone, and bytes made of whole pieces are cut where they were
joined.
-/

namespace CipherVault.Bytes

variable {size : Nat} {bs : Bytes}

/-- The cut does not depend on how much fuel is left over. -/
private theorem go_of_length_le {fuel : Nat} (h : bs.length ≤ fuel) :
    pieces.go size fuel bs = pieces size bs := by
  suffices ∀ other, bs.length ≤ other → pieces.go size fuel bs = pieces.go size other bs from
    this _ (Nat.le_refl _)
  induction fuel generalizing bs with
  | zero =>
    intro other _
    rw [List.eq_nil_of_length_eq_zero (Nat.le_zero.mp h)]
    cases other <;> rfl
  | succ fuel ih =>
    intro other hother
    cases bs with
    | nil => cases other <;> rfl
    | cons b rest =>
      cases other with
      | zero => cases hother
      | succ other =>
        have hfuel : (rest.drop (size - 1)).length ≤ fuel := by
          simp only [List.length_cons, List.length_drop] at h ⊢
          omega
        have hrest : (rest.drop (size - 1)).length ≤ other := by
          simp only [List.length_cons, List.length_drop] at hother ⊢
          omega
        rw [pieces.go, pieces.go, ih hfuel other hrest]

@[simp]
theorem pieces_nil (size : Nat) : pieces size [] = [] := rfl

/-- The first piece, and the pieces of what is behind it. -/
theorem pieces_of_ne_nil (hsize : 0 < size) (h : bs ≠ []) :
    pieces size bs = bs.take size :: pieces size (bs.drop size) := by
  cases bs with
  | nil => exact absurd rfl h
  | cons b rest =>
    cases size with
    | zero => cases hsize
    | succ count =>
      have hrest : (rest.drop count).length ≤ rest.length := by
        rw [List.length_drop]
        exact Nat.sub_le ..
      rw [pieces, List.length_cons, pieces.go, Nat.add_sub_cancel, go_of_length_le hrest]
      rfl

/-- What holds of no bytes, and of bytes if of those behind their first piece, holds of all. -/
@[elab_as_elim]
theorem pieces_induction (hsize : 0 < size) {motive : Bytes → Prop} (nil : motive [])
    (cut : ∀ bs, bs ≠ [] → motive (bs.drop size) → motive bs) (bs : Bytes) : motive bs := by
  induction hlength : bs.length using Nat.strongRecOn generalizing bs with
  | ind length ih =>
    by_cases h : bs = []
    · exact h ▸ nil
    · have hpos := List.length_pos_iff.mpr h
      apply cut bs h
      apply ih _ _ _ rfl
      rw [List.length_drop]
      omega

/-- Nothing is lost or moved. -/
theorem flatten_pieces (hsize : 0 < size) (bs : Bytes) : (pieces size bs).flatten = bs := by
  induction bs using pieces_induction hsize with
  | nil => rfl
  | cut bs h ih => rw [pieces_of_ne_nil hsize h, List.flatten_cons, ih, List.take_append_drop]

theorem length_le_of_mem_pieces (hsize : 0 < size) {piece : Bytes} (h : piece ∈ pieces size bs) :
    piece.length ≤ size := by
  induction bs using pieces_induction hsize with
  | nil => cases h
  | cut bs hbs ih =>
    rw [pieces_of_ne_nil hsize hbs, List.mem_cons] at h
    rcases h with rfl | hrest
    · exact List.length_take_le ..
    · exact ih hrest

/-- The number of pieces is the quotient of the lengths, rounded up. -/
theorem length_pieces (hsize : 0 < size) (bs : Bytes) :
    (pieces size bs).length = (bs.length + size - 1) / size := by
  induction bs using pieces_induction hsize with
  | nil =>
    have hless : 0 + size - 1 < size := by omega
    exact (Nat.div_eq_of_lt hless).symm
  | cut bs h ih =>
    have hpos := List.length_pos_iff.mpr h
    rw [pieces_of_ne_nil hsize h, List.length_cons, ih, List.length_drop]
    by_cases hle : size ≤ bs.length
    · calc (bs.length - size + size - 1) / size + 1
        _ = (bs.length - 1) / size + 1 := by rw [Nat.sub_add_cancel hle]
        _ = (bs.length - 1 + size) / size := (Nat.add_div_right _ hsize).symm
        _ = (bs.length + size - 1) / size := by rw [Nat.sub_add_comm hpos]
    -- A last piece that is short counts as one.
    · rw [Nat.div_eq_of_lt (by omega)]
      exact (Nat.div_eq_of_lt_le (by omega) (by omega)).symm

/-- A whole piece in front is cut off again. -/
theorem pieces_append (hsize : 0 < size) {block : Bytes} (h : block.length = size) (rest : Bytes) :
    pieces size (block ++ rest) = block :: pieces size rest := by
  have hblock : block ≠ [] := List.ne_nil_of_length_pos (h ▸ hsize)
  rw [pieces_of_ne_nil hsize (List.append_ne_nil_of_left_ne_nil hblock rest),
    List.take_left' h, List.drop_left' h]

/-- What whole pieces were joined to is cut into the same pieces. -/
theorem pieces_flatten (hsize : 0 < size) {blocks : List Bytes}
    (h : ∀ block ∈ blocks, block.length = size) : pieces size blocks.flatten = blocks := by
  induction blocks with
  | nil => rfl
  | cons block rest ih =>
    obtain ⟨hblock, hrest⟩ := List.forall_mem_cons.mp h
    rw [List.flatten_cons, pieces_append hsize hblock, ih hrest]

/-- Bytes that are a whole number of pieces long are cut into whole pieces only. -/
theorem length_of_mem_pieces (hsize : 0 < size) (hwhole : size ∣ bs.length) {piece : Bytes}
    (h : piece ∈ pieces size bs) : piece.length = size := by
  induction bs using pieces_induction hsize with
  | nil => cases h
  | cut bs hne ih =>
    have hle : size ≤ bs.length := Nat.le_of_dvd (List.length_pos_iff.mpr hne) hwhole
    rw [pieces_of_ne_nil hsize hne, List.mem_cons] at h
    rcases h with rfl | hrest
    · exact List.length_take_of_le hle
    · apply ih _ hrest
      rw [List.length_drop]
      exact Nat.dvd_sub hwhole (Nat.dvd_refl size)

end CipherVault.Bytes
