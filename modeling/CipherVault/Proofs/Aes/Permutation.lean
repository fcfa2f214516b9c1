import CipherVault.Aes.Schedule
/-!
# AES permutes blocks

Under every key schedule encryption and decryption of a block undo each other.  Each layer of a
round has its inverse; that of the column maps rests on doubling being linear, so the two matrices
multiply to the identity already as polynomials.
-/

namespace CipherVault.Aes

/-! ## Bytes -/

/-- Two tables of which the second, looked up at each value of the first, yields all bytes in order
are inverse to each other in this order. -/
private theorem getD_getD {first second : Array Byte}
    (h : (first.toList.map fun b => second.toList.getD b.toNat 0) =
      (List.range 256).map UInt8.ofNat) (b : Byte) :
    second.getD (first.getD b.toNat 0).toNat 0 = b := by
  have hb := congrArg (fun bs => bs[b.toNat]?) h
  simp only [List.getElem?_map, List.getElem?_range b.toNat_lt, Option.map_some,
    UInt8.ofNat_toNat] at hb
  obtain ⟨value, hvalue, hsecond⟩ := Option.map_eq_some_iff.mp hb
  have hfirst : first.getD b.toNat 0 = value := by
    rw [Array.getD_eq_getD_getElem?, ← Array.getElem?_toList, hvalue]
    rfl
  rw [hfirst, Array.getD_eq_getD_getElem?, ← Array.getElem?_toList, ← List.getD_eq_getElem?_getD]
  exact hsecond

private theorem inverseTable_substitutionTable :
    (substitutionTable.toList.map fun b => inverseTable.toList.getD b.toNat 0) =
      (List.range 256).map UInt8.ofNat := by
  decide +kernel

private theorem substitutionTable_inverseTable :
    (inverseTable.toList.map fun b => substitutionTable.toList.getD b.toNat 0) =
      (List.range 256).map UInt8.ofNat := by
  decide +kernel

@[simp]
theorem unsubstitute_substitute (b : Byte) : unsubstitute (substitute b) = b := by
  rw [unsubstitute, substitute]
  exact getD_getD inverseTable_substitutionTable b

@[simp]
theorem substitute_unsubstitute (b : Byte) : substitute (unsubstitute b) = b := by
  rw [substitute, unsubstitute]
  exact getD_getD substitutionTable_inverseTable b

theorem xor_xor_cancel (a b : Byte) : a ^^^ b ^^^ b = a := by
  rw [UInt8.xor_assoc, UInt8.xor_self, UInt8.xor_zero]

private theorem xor_left_comm (a b c : Byte) : a ^^^ (b ^^^ c) = b ^^^ (a ^^^ c) := by ac_rfl

private theorem xor_xor_cancel_left (a b : Byte) : a ^^^ (a ^^^ b) = b := by
  rw [← UInt8.xor_assoc, UInt8.xor_self, UInt8.zero_xor]

private theorem lt_128_iff (b : Byte) : b < 0x80 ↔ b.toBitVec.msb = false := by
  rw [BitVec.msb_eq_false_iff_two_mul_lt, UInt8.lt_iff_toNat_lt]
  change b.toNat < 128 ↔ 2 * b.toNat < 256
  omega

/-- Doubling is linear: the reduction is added exactly when one of two top bits is set. -/
theorem double_xor (a b : Byte) : double (a ^^^ b) = double a ^^^ double b := by
  simp only [double, lt_128_iff, UInt8.toBitVec_xor, BitVec.msb_xor, UInt8.shiftLeft_xor]
  cases a.toBitVec.msb with
  | false =>
    cases b.toBitVec.msb with
    | false => simp
    | true => simp [UInt8.xor_assoc]
  | true =>
    cases b.toBitVec.msb with
    | false =>
      simp only [Bool.true_bne, Bool.not_false, Bool.true_eq_false, ↓reduceIte]
      ac_rfl
    | true =>
      have hcancel (x y z : Byte) : x ^^^ z ^^^ (y ^^^ z) = x ^^^ y ^^^ (z ^^^ z) := by ac_rfl
      simp [hcancel]

theorem triple_xor (a b : Byte) : triple (a ^^^ b) = triple a ^^^ triple b := by
  simp only [triple, double_xor]
  ac_rfl

theorem times9_xor (a b : Byte) : times9 (a ^^^ b) = times9 a ^^^ times9 b := by
  simp only [times9, double_xor]
  ac_rfl

theorem times11_xor (a b : Byte) : times11 (a ^^^ b) = times11 a ^^^ times11 b := by
  simp only [times11, double_xor]
  ac_rfl

theorem times13_xor (a b : Byte) : times13 (a ^^^ b) = times13 a ^^^ times13 b := by
  simp only [times13, double_xor]
  ac_rfl

theorem times14_xor (a b : Byte) : times14 (a ^^^ b) = times14 a ^^^ times14 b := by
  simp only [times14, double_xor]
  ac_rfl

/-- The first row of the product of the two column matrices, an equation for each entry: one on the
diagonal and zero beside it.  With the doublings of the byte as unknowns, equal terms cancel. -/
private theorem unmix_mix_entries (b : Byte) :
    times14 (double b) ^^^ times11 b ^^^ times13 b ^^^ times9 (triple b) = b ∧
      times14 (triple b) ^^^ times11 (double b) ^^^ times13 b ^^^ times9 b = 0 ∧
      times14 b ^^^ times11 (triple b) ^^^ times13 (double b) ^^^ times9 b = 0 ∧
      times14 b ^^^ times11 b ^^^ times13 (triple b) ^^^ times9 (double b) = 0 := by
  simp only [triple, times9, times11, times13, times14, double_xor]
  generalize double (double (double (double b))) = b4
  generalize double (double (double b)) = b3
  generalize double (double b) = b2
  generalize double b = b1
  simp only [UInt8.xor_comm, xor_left_comm, xor_xor_cancel_left, UInt8.xor_self, UInt8.xor_zero,
    and_self]

private theorem mix_unmix_entries (b : Byte) :
    double (times14 b) ^^^ triple (times9 b) ^^^ times13 b ^^^ times11 b = b ∧
      double (times11 b) ^^^ triple (times14 b) ^^^ times9 b ^^^ times13 b = 0 ∧
      double (times13 b) ^^^ triple (times11 b) ^^^ times14 b ^^^ times9 b = 0 ∧
      double (times9 b) ^^^ triple (times13 b) ^^^ times11 b ^^^ times14 b = 0 := by
  simp only [triple, times9, times11, times13, times14, double_xor]
  generalize double (double (double (double b))) = b4
  generalize double (double (double b)) = b3
  generalize double (double b) = b2
  generalize double b = b1
  simp only [UInt8.xor_comm, xor_left_comm, xor_xor_cancel_left, UInt8.xor_self, UInt8.xor_zero,
    and_self]

/-! ## Columns -/

namespace Word

@[simp]
theorem xor_xor (u v : Word) : (u.xor v).xor v = u := by
  simp only [xor, xor_xor_cancel]

@[simp]
theorem map_unsubstitute_map (w : Word) : (w.map substitute).map unsubstitute = w := by
  simp [map]

@[simp]
theorem map_substitute_map (w : Word) : (w.map unsubstitute).map substitute = w := by
  simp [map]

/-- Both column maps are circulant, so their first row decides them. -/
theorem mix_rotate (w : Word) : w.rotate.mix = w.mix.rotate := by
  ext <;> simp only [rotate, mix] <;> ac_rfl

theorem unmix_rotate (w : Word) : w.rotate.unmix = w.unmix.rotate := by
  ext <;> simp only [rotate, unmix] <;> ac_rfl

private theorem unmix_mix_b0 (w : Word) : w.mix.unmix.b0 = w.b0 := by
  obtain ⟨h0, -, -, -⟩ := unmix_mix_entries w.b0
  obtain ⟨-, h1, -, -⟩ := unmix_mix_entries w.b1
  obtain ⟨-, -, h2, -⟩ := unmix_mix_entries w.b2
  obtain ⟨-, -, -, h3⟩ := unmix_mix_entries w.b3
  calc w.mix.unmix.b0
      = (times14 (double w.b0) ^^^ times11 w.b0 ^^^ times13 w.b0 ^^^ times9 (triple w.b0)) ^^^
        (times14 (triple w.b1) ^^^ times11 (double w.b1) ^^^ times13 w.b1 ^^^ times9 w.b1) ^^^
        (times14 w.b2 ^^^ times11 (triple w.b2) ^^^ times13 (double w.b2) ^^^ times9 w.b2) ^^^
        (times14 w.b3 ^^^ times11 w.b3 ^^^ times13 (triple w.b3) ^^^ times9 (double w.b3)) := by
        simp only [mix, unmix, times9_xor, times11_xor, times13_xor, times14_xor]
        ac_rfl
    _ = w.b0 := by rw [h0, h1, h2, h3]; simp

private theorem mix_unmix_b0 (w : Word) : w.unmix.mix.b0 = w.b0 := by
  obtain ⟨h0, -, -, -⟩ := mix_unmix_entries w.b0
  obtain ⟨-, h1, -, -⟩ := mix_unmix_entries w.b1
  obtain ⟨-, -, h2, -⟩ := mix_unmix_entries w.b2
  obtain ⟨-, -, -, h3⟩ := mix_unmix_entries w.b3
  calc w.unmix.mix.b0
      = (double (times14 w.b0) ^^^ triple (times9 w.b0) ^^^ times13 w.b0 ^^^ times11 w.b0) ^^^
        (double (times11 w.b1) ^^^ triple (times14 w.b1) ^^^ times9 w.b1 ^^^ times13 w.b1) ^^^
        (double (times13 w.b2) ^^^ triple (times11 w.b2) ^^^ times14 w.b2 ^^^ times9 w.b2) ^^^
        (double (times9 w.b3) ^^^ triple (times13 w.b3) ^^^ times11 w.b3 ^^^ times14 w.b3) := by
        simp only [mix, unmix, double_xor, triple_xor]
        ac_rfl
    _ = w.b0 := by rw [h0, h1, h2, h3]; simp

@[simp]
theorem unmix_mix (w : Word) : w.mix.unmix = w := by
  have h0 := unmix_mix_b0 w
  have h1 := unmix_mix_b0 w.rotate
  have h2 := unmix_mix_b0 w.rotate.rotate
  have h3 := unmix_mix_b0 w.rotate.rotate.rotate
  simp only [mix_rotate, unmix_rotate] at h1 h2 h3
  exact Word.ext h0 h1 h2 h3

@[simp]
theorem mix_unmix (w : Word) : w.unmix.mix = w := by
  have h0 := mix_unmix_b0 w
  have h1 := mix_unmix_b0 w.rotate
  have h2 := mix_unmix_b0 w.rotate.rotate
  have h3 := mix_unmix_b0 w.rotate.rotate.rotate
  simp only [mix_rotate, unmix_rotate] at h1 h2 h3
  exact Word.ext h0 h1 h2 h3

end Word

/-! ## Blocks and rounds -/

namespace Block

@[simp]
theorem xor_xor (s t : Block) : (s.xor t).xor t = s := by
  simp [xor]

@[simp]
theorem map_unsubstitute_map (s : Block) : (s.map substitute).map unsubstitute = s := by
  simp [map]

@[simp]
theorem map_substitute_map (s : Block) : (s.map unsubstitute).map substitute = s := by
  simp [map]

@[simp]
theorem unshiftRows_shiftRows (s : Block) : s.shiftRows.unshiftRows = s := rfl

@[simp]
theorem shiftRows_unshiftRows (s : Block) : s.unshiftRows.shiftRows = s := rfl

@[simp]
theorem unmix_mix (s : Block) : s.mix.unmix = s := by
  simp [mix, unmix]

@[simp]
theorem mix_unmix (s : Block) : s.unmix.mix = s := by
  simp [mix, unmix]

end Block

namespace Schedule

@[simp]
theorem unround_round (s key : Block) : unround key (round s key) = s := by
  simp [round, unround]

@[simp]
theorem round_unround (s key : Block) : round (unround key s) key = s := by
  simp [round, unround]

theorem foldr_unround_foldl_round (keys : List Block) (s : Block) :
    keys.foldr unround (keys.foldl round s) = s := by
  induction keys generalizing s with
  | nil => rfl
  | cons key rest ih =>
    rw [List.foldl_cons, List.foldr_cons, ih, unround_round]

theorem foldl_round_foldr_unround (keys : List Block) (s : Block) :
    keys.foldl round (keys.foldr unround s) = s := by
  induction keys with
  | nil => rfl
  | cons key rest ih =>
    rw [List.foldr_cons, List.foldl_cons, round_unround, ih]

@[simp]
theorem decrypt_encrypt (schedule : Schedule) (block : Block) :
    schedule.decrypt (schedule.encrypt block) = block := by
  simp [decrypt, encrypt, foldr_unround_foldl_round]

@[simp]
theorem encrypt_decrypt (schedule : Schedule) (block : Block) :
    schedule.encrypt (schedule.decrypt block) = block := by
  simp [decrypt, encrypt, foldl_round_foldr_unround]

end Schedule

end CipherVault.Aes
