import CipherVault.Aes.Mode
import CipherVault.Proofs.Aes.Permutation
import CipherVault.Proofs.Outcome
/-!
# Block modes decrypt exactly what they encrypt

A text decrypts to a plaintext under a mode, a padding and an initialization vector exactly if the
plaintext encrypts to the text.  The three layers are inverted one by one: cutting into blocks,
padding, and the chaining of blocks.
-/

namespace CipherVault

namespace Pkcs7

theorem padLength_pos (length : Nat) : 1 ≤ padLength length := by
  unfold padLength
  omega

theorem padLength_le (length : Nat) : padLength length ≤ 16 := by
  unfold padLength
  omega

theorem toNat_padByte (length : Nat) :
    (UInt8.ofNat (padLength length)).toNat = padLength length :=
  UInt8.toNat_ofNat_of_lt' (Nat.lt_of_le_of_lt (padLength_le length) (by decide))

/-- Of whole blocks, padding is removed exactly from padded texts: the number of padding bytes is
the only one that the length of the rest allows. -/
theorem unpad?_eq_some_iff {padded bs : Bytes} (haligned : padded.length % 16 = 0) :
    unpad? padded = some bs ↔ padded = pad bs := by
  constructor
  · intro h
    rw [unpad?] at h
    split at h
    · cases h
    · next last hlast =>
      dsimp only at h
      split at h
      · next hpadding =>
        obtain ⟨hpos, hle, hdrop⟩ := hpadding
        cases h
        have hlength := congrArg List.length hdrop
        simp only [List.length_drop, List.length_replicate] at hlength
        have hcount : padLength (padded.length - last.toNat) = last.toNat := by
          unfold padLength
          omega
        have hkept : (padded.take (padded.length - last.toNat)).length =
            padded.length - last.toNat := by
          simp
        rw [pad, hkept, hcount, UInt8.ofNat_toNat, ← hdrop, List.take_append_drop]
      · cases h
  · intro heq
    subst heq
    have hpos := padLength_pos bs.length
    have hlast : (pad bs).getLast? = some (UInt8.ofNat (padLength bs.length)) := by
      rw [pad, List.getLast?_append, List.getLast?_replicate, if_neg (by omega)]
      rfl
    have hkept : (pad bs).length - padLength bs.length = bs.length := by
      simp [pad]
    rw [unpad?, hlast]
    simp only [toNat_padByte, hkept]
    rw [if_pos ⟨hpos, padLength_le bs.length, by simp [pad]⟩]
    simp [pad]

end Pkcs7

namespace Aes

/-! ## Blocks -/

@[simp]
theorem length_blockBytes (blocks : List Block) :
    (blockBytes blocks).length = 16 * blocks.length := by
  induction blocks with
  | nil => rfl
  | cons block rest ih =>
    rw [blockBytes, List.flatMap_cons, List.length_append, ← blockBytes, ih,
      Block.length_toBytes, List.length_cons]
    omega

theorem blocks?_blockBytes (blocks : List Block) : blocks? (blockBytes blocks) = some blocks := by
  induction blocks with
  | nil => rfl
  | cons block rest ih =>
    rw [blockBytes, List.flatMap_cons, ← blockBytes, Block.toBytes]
    simp only [List.cons_append, List.nil_append, blocks?, ih]
    rfl

theorem blocks?_eq_some_iff {bs : Bytes} {blocks : List Block} :
    blocks? bs = some blocks ↔ bs = blockBytes blocks := by
  constructor
  · intro h
    fun_induction blocks? bs generalizing blocks with
    | case1 =>
      cases h
      rfl
    | case2 a0 a1 a2 a3 b0 b1 b2 b3 c0 c1 c2 c3 d0 d1 d2 d3 rest ih =>
      obtain ⟨more, hmore, rfl⟩ := Option.map_eq_some_iff.mp h
      rw [ih hmore]
      rfl
    | case3 => cases h
  · intro heq
    subst heq
    exact blocks?_blockBytes blocks

theorem blockBytes_injective {left right : List Block} (h : blockBytes left = blockBytes right) :
    left = right := by
  have hblocks := congrArg blocks? h
  simpa only [blocks?_blockBytes, Option.some.injEq] using hblocks

theorem exists_block_append {bs : Bytes} (h : 16 ≤ bs.length) :
    ∃ (block : Block) (rest : Bytes), bs = block.toBytes ++ rest := by
  match bs with
  | a0 :: a1 :: a2 :: a3 :: b0 :: b1 :: b2 :: b3 :: c0 :: c1 :: c2 :: c3 :: d0 :: d1 :: d2 :: d3 ::
      rest =>
    exact ⟨⟨⟨a0, a1, a2, a3⟩, ⟨b0, b1, b2, b3⟩, ⟨c0, c1, c2, c3⟩, ⟨d0, d1, d2, d3⟩⟩, rest, rfl⟩

/-- Sixteen bytes are a block. -/
theorem exists_block? {bs : Bytes} (h : bs.length = 16) : ∃ block, block? bs = some block := by
  obtain ⟨block, rest, rfl⟩ := exists_block_append (Nat.le_of_eq h.symm)
  have hrest : rest = [] := by simpa using h
  subst hrest
  have hblocks : blocks? (block.toBytes ++ []) = some [block] := blocks?_blockBytes [block]
  exact ⟨block, by rw [block?, hblocks]⟩

/-! ## Chaining -/

theorem unchain_chain (schedule : Schedule) (previous : Block) (blocks : List Block) :
    unchain schedule previous (chain schedule previous blocks) = blocks := by
  induction blocks generalizing previous with
  | nil => rfl
  | cons block rest ih => simp [chain, unchain, ih]

theorem chain_unchain (schedule : Schedule) (previous : Block) (blocks : List Block) :
    chain schedule previous (unchain schedule previous blocks) = blocks := by
  induction blocks generalizing previous with
  | nil => rfl
  | cons block rest ih => simp [chain, unchain, ih]

namespace Padding

theorem remove?_eq_some_iff {padding : Padding} {padded bs : Bytes}
    (haligned : padded.length % 16 = 0) :
    padding.remove? padded = some bs ↔ padded = padding.apply bs := by
  cases padding with
  | pkcs7 => exact Pkcs7.unpad?_eq_some_iff haligned
  | none => simp [remove?, apply]

end Padding

namespace Mode

/-- On blocks each mode is a bijection, decryption being the inverse of encryption. -/
theorem runBlocks_decrypt_eq_ok_iff {mode : Mode} {schedule : Schedule} {iv : Bytes}
    {cipher plain : List Block} :
    mode.runBlocks schedule.decrypt (unchain schedule) iv cipher = .ok plain ↔
      mode.runBlocks schedule.encrypt (chain schedule) iv plain = .ok cipher := by
  cases mode with
  | ecb =>
    simp only [runBlocks, Except.ok.injEq]
    constructor
    · intro heq
      subst heq
      simp [Function.comp_def]
    · intro heq
      subst heq
      simp [Function.comp_def]
  | cbc =>
    simp only [runBlocks]
    split
    · next start _ =>
      simp only [Except.ok.injEq]
      constructor
      · intro heq
        subst heq
        exact chain_unchain schedule start cipher
      · intro heq
        subst heq
        exact unchain_chain schedule start plain
    · simp

theorem encrypt_eq_ok_iff {mode : Mode} {padding : Padding} {schedule : Schedule}
    {iv plain data : Bytes} :
    mode.encrypt padding schedule iv plain = .ok data ↔
      ∃ blocks sealedBlocks, blockBytes blocks = padding.apply plain ∧
        mode.runBlocks schedule.encrypt (chain schedule) iv blocks = .ok sealedBlocks ∧
        data = blockBytes sealedBlocks := by
  rw [encrypt]
  split
  · next hnone =>
    simp only [reduceCtorEq, false_iff, not_exists, not_and]
    intro blocks _ hblocks
    rw [← hblocks, blocks?_blockBytes] at hnone
    cases hnone
  · next blocks hblocks =>
    have heq := blocks?_eq_some_iff.mp hblocks
    rw [Outcome.map_eq_ok]
    constructor
    · intro h
      obtain ⟨sealedBlocks, hrun, rfl⟩ := h
      exact ⟨blocks, sealedBlocks, heq.symm, hrun, rfl⟩
    · intro h
      obtain ⟨other, sealedBlocks, hother, hrun, rfl⟩ := h
      obtain rfl := blockBytes_injective (hother.trans heq)
      exact ⟨sealedBlocks, hrun, rfl⟩

/-- A text decrypts to a plaintext exactly if the plaintext encrypts to it. -/
theorem decrypt_eq_ok_iff {mode : Mode} {padding : Padding} {schedule : Schedule}
    {iv plain data : Bytes} :
    mode.decrypt padding schedule iv data = .ok plain ↔
      mode.encrypt padding schedule iv plain = .ok data := by
  rw [encrypt_eq_ok_iff, decrypt]
  constructor
  · intro h
    split at h
    · cases h
    · next sealedBlocks hsealed =>
      obtain ⟨blocks, hrun, hremove⟩ := Outcome.bind_eq_ok.mp h
      split at hremove
      · next found hfound =>
        cases hremove
        rw [Padding.remove?_eq_some_iff (by simp)] at hfound
        exact ⟨blocks, sealedBlocks, hfound, runBlocks_decrypt_eq_ok_iff.mp hrun,
          blocks?_eq_some_iff.mp hsealed⟩
      · cases hremove
  · intro h
    obtain ⟨blocks, sealedBlocks, hblocks, hrun, rfl⟩ := h
    have hremove : padding.remove? (blockBytes blocks) = some plain :=
      (Padding.remove?_eq_some_iff (by simp)).mpr hblocks
    rw [blocks?_blockBytes]
    simp only [runBlocks_decrypt_eq_ok_iff.mpr hrun, Outcome.ok_bind, hremove]

end Mode

end Aes

end CipherVault
