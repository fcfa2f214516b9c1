import CipherVault.Bytes
/-!
# Numbers as bytes

The digits of a number, as many as it has or more, are read as the number, and bytes are the digits
of the number that they are read as.
-/

namespace CipherVault.Bytes

private theorem foldl_toNat (value : Nat) (bs : Bytes) :
    bs.foldl (fun value b => value * 256 + b.toNat) value =
      value * Nat.pow 256 bs.length + toNat bs := by
  simp only [toNat]
  induction bs generalizing value with
  | nil => simp
  | cons b bs ih =>
    rw [List.foldl_cons, List.foldl_cons, ih, ih (0 * 256 + b.toNat)]
    simp only [List.length_cons, Nat.pow_eq, Nat.pow_succ]
    rw [Nat.add_mul, Nat.zero_mul, Nat.zero_add, Nat.add_assoc, Nat.mul_assoc,
      Nat.mul_comm 256]

theorem toNat_cons (b : Byte) (bs : Bytes) :
    toNat (b :: bs) = b.toNat * Nat.pow 256 bs.length + toNat bs := by
  have h := foldl_toNat (0 * 256 + b.toNat) bs
  rw [Nat.zero_mul, Nat.zero_add] at h
  simpa only [toNat, List.foldl_cons, Nat.zero_mul, Nat.zero_add] using h

theorem toNat_ofNat (length n : Nat) : toNat (ofNat length n) = n % Nat.pow 256 length := by
  induction length with
  | zero => simp [ofNat, toNat, Nat.mod_one]
  | succ length ih =>
    have hsplit : n % 256 ^ (length + 1) =
        n % 256 ^ length + 256 ^ length * (n / 256 ^ length % 256) := Nat.mod_pow_succ
    rw [ofNat, toNat_cons, ih, length_ofNat, UInt8.toNat_ofNat']
    simp only [Nat.pow_eq]
    rw [hsplit, Nat.add_comm, Nat.mul_comm]

theorem toNat_lt (bs : Bytes) : toNat bs < Nat.pow 256 bs.length := by
  induction bs with
  | nil => exact Nat.one_pos
  | cons b bs ih =>
    rw [toNat_cons]
    calc b.toNat * Nat.pow 256 bs.length + toNat bs
        < b.toNat * Nat.pow 256 bs.length + Nat.pow 256 bs.length := Nat.add_lt_add_left ih _
      _ = (b.toNat + 1) * Nat.pow 256 bs.length := (Nat.succ_mul _ _).symm
      _ ≤ 256 * Nat.pow 256 bs.length := Nat.mul_le_mul_right _ b.toNat_lt
      _ = Nat.pow 256 (bs.length + 1) := (Nat.pow_succ').symm

/-- Bytes of one length that are read as one number are the same. -/
theorem toNat_inj {left right : Bytes} (hlength : left.length = right.length)
    (h : toNat left = toNat right) : left = right := by
  induction left generalizing right with
  | nil => exact (List.eq_nil_of_length_eq_zero hlength.symm).symm
  | cons b left ih =>
    cases right with
    | nil => cases hlength
    | cons c right =>
      have hrest : left.length = right.length := Nat.succ.inj hlength
      have hleft := toNat_lt left
      have hright := toNat_lt right
      rw [hrest] at hleft
      rw [toNat_cons, toNat_cons, hrest] at h
      have hvalue : toNat left = toNat right :=
        calc toNat left
          _ = (b.toNat * Nat.pow 256 right.length + toNat left) % Nat.pow 256 right.length := by
            rw [Nat.mul_add_mod_self_right, Nat.mod_eq_of_lt hleft]
          _ = (c.toNat * Nat.pow 256 right.length + toNat right) % Nat.pow 256 right.length := by
            rw [h]
          _ = toNat right := by rw [Nat.mul_add_mod_self_right, Nat.mod_eq_of_lt hright]
      have hdigit : b.toNat = c.toNat := by
        rw [hvalue] at h
        exact Nat.eq_of_mul_eq_mul_right (Nat.pow_pos (by decide)) (Nat.add_right_cancel h)
      rw [UInt8.toNat_inj.mp hdigit, ih hrest hvalue]

theorem ofNat_toNat (bs : Bytes) : ofNat bs.length (toNat bs) = bs := by
  apply toNat_inj (length_ofNat _ _)
  rw [toNat_ofNat, Nat.mod_eq_of_lt (toNat_lt bs)]

theorem lt_pow_byteLength (n : Nat) : n < Nat.pow 256 (byteLength n) := by
  unfold byteLength
  split
  · next hzero => simp [hzero]
  · calc n < 2 ^ (n.log2 + 1) := Nat.lt_log2_self
      _ ≤ 2 ^ (8 * (n.log2 / 8 + 1)) := Nat.pow_le_pow_right (by decide) (by omega)
      _ = Nat.pow 256 (n.log2 / 8 + 1) := Nat.pow_mul 2 8 _

@[simp]
theorem toNat_digits (n : Nat) : toNat (digits n) = n := by
  rw [digits, toNat_ofNat, Nat.mod_eq_of_lt (lt_pow_byteLength n)]

@[simp]
theorem length_digits (n : Nat) : (digits n).length = byteLength n :=
  length_ofNat _ _

theorem pow_le_of_byteLength {n : Nat} (h : 0 < n) : Nat.pow 256 (byteLength n - 1) ≤ n := by
  have hpos : n ≠ 0 := Nat.ne_of_gt h
  rw [byteLength, if_neg hpos, Nat.add_sub_cancel]
  calc Nat.pow 256 (n.log2 / 8)
    _ = 2 ^ (8 * (n.log2 / 8)) := (Nat.pow_mul 2 8 _).symm
    _ ≤ 2 ^ n.log2 := Nat.pow_le_pow_right (by decide) (Nat.mul_div_le _ _)
    _ ≤ n := Nat.log2_self_le hpos

theorem byteLength_le {n count : Nat} (h : n < Nat.pow 256 count) : byteLength n ≤ count := by
  unfold byteLength
  split
  · exact Nat.zero_le count
  · next hpos =>
    have hbits : n < 2 ^ (8 * count) := by
      rw [Nat.pow_mul]
      exact h
    have hlog := (Nat.log2_lt hpos).mpr hbits
    omega

end CipherVault.Bytes
