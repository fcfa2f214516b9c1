import CipherVault.Proofs.DecryptionFailure
import CipherVault.Proofs.Rsa.Chunks
/-!
# RSA decryption goes block by block

The blocks of a ciphertext are decrypted one by one, with nothing carried from one to the next.  So
a ciphertext of several parts decrypts to what its parts decrypt to, a block that fails makes the
whole fail, and blocks that are repeated, moved or left out are not noticed.
-/

namespace CipherVault

namespace Rsa.PrivateKey

variable {key : PrivateKey} {padding : Padding} {blocks : List Bytes} {data plain : Bytes}

/-- A positive number of whole blocks. -/
structure IsBlocks (key : PrivateKey) (data : Bytes) : Prop where
  ne_nil : data ≠ []
  dvd : key.size ∣ data.length

/-- What a block adds to the text: its chunk, nothing if it has none. -/
def chunkOf (key : PrivateKey) (padding : Padding) (block : Bytes) : Bytes :=
  (key.decryptBlock? padding block).getD []

/-- Blocks decrypt if each of them does, to their chunks one behind the other. -/
theorem decryptBlocks?_eq_some_iff :
    key.decryptBlocks? padding blocks = some plain ↔
      (∀ block ∈ blocks, ∃ chunk, key.decryptBlock? padding block = some chunk) ∧
        plain = blocks.flatMap (key.chunkOf padding) := by
  induction blocks generalizing plain with
  | nil => simp [decryptBlocks?, eq_comm]
  | cons block rest ih =>
    simp only [decryptBlocks?, Option.bind_eq_bind, Option.bind_eq_some_iff, ih,
      List.forall_mem_cons, List.flatMap_cons, chunkOf]
    constructor
    · rintro ⟨chunk, hchunk, _, ⟨hrest, rfl⟩, hplain⟩
      obtain rfl := Option.some.inj hplain
      exact ⟨⟨⟨chunk, hchunk⟩, hrest⟩, by rw [hchunk]; rfl⟩
    · rintro ⟨⟨⟨chunk, hchunk⟩, hrest⟩, rfl⟩
      exact ⟨chunk, hchunk, _, ⟨hrest, rfl⟩, by rw [hchunk]; rfl⟩

theorem isBlocks_flatten (hne : blocks ≠ []) (h : ∀ block ∈ blocks, block.length = key.size) :
    key.IsBlocks blocks.flatten := by
  constructor
  · obtain ⟨block, hmem⟩ := List.exists_mem_of_ne_nil blocks hne
    have hblock : block ≠ [] := List.ne_nil_of_length_pos (h block hmem ▸ key.size_pos)
    exact fun hnil => hblock (List.flatten_eq_nil_iff.mp hnil block hmem)
  · rw [List.length_flatten]
    apply List.dvd_sum
    intro length hmem
    obtain ⟨block, hblock, rfl⟩ := List.mem_map.mp hmem
    rw [h block hblock]

theorem IsBlocks.exists_eq_flatten (h : key.IsBlocks data) :
    ∃ blocks, blocks ≠ [] ∧ (∀ block ∈ blocks, block.length = key.size) ∧
      data = blocks.flatten := by
  refine ⟨data.pieces key.size, ?_, fun block => Bytes.length_of_mem_pieces key.size_pos h.dvd,
    (Bytes.flatten_pieces key.size_pos data).symm⟩
  rw [Bytes.pieces_of_ne_nil key.size_pos h.ne_nil]
  exact List.cons_ne_nil _ _

/-- Past the check of its length, a ciphertext stands or falls with its blocks. -/
theorem decrypt_flatten_eq_ok_iff (hne : blocks ≠ [])
    (h : ∀ block ∈ blocks, block.length = key.size) :
    key.decrypt padding blocks.flatten = .ok plain ↔
      (∀ block ∈ blocks, ∃ chunk, key.decryptBlock? padding block = some chunk) ∧
        plain = blocks.flatMap (key.chunkOf padding) := by
  obtain ⟨hdata, hwhole⟩ := isBlocks_flatten hne h
  have hpasses : ¬(blocks.flatten.isEmpty ∨ blocks.flatten.length % key.size ≠ 0) := by
    rintro (hempty | hrest)
    · exact hdata (List.isEmpty_iff.mp hempty)
    · exact hrest (Nat.mod_eq_zero_of_dvd hwhole)
  rw [decrypt, if_neg hpasses, Bytes.pieces_flatten key.size_pos h, ← decryptBlocks?_eq_some_iff]
  cases key.decryptBlocks? padding blocks with
  | some chunks => simp
  | none => simp

theorem IsBlocks.error_of_decrypt {e : BlockError} (h : key.IsBlocks data)
    (hfailed : key.decrypt padding data = .error e) : e = .badBlock := by
  rw [PrivateKey.error_of_decrypt hfailed, if_neg]
  rintro (hempty | hrest)
  · exact h.ne_nil (List.eq_nil_of_length_eq_zero hempty)
  · exact hrest (Nat.mod_eq_zero_of_dvd h.dvd)

theorem IsBlocks.append {left right : Bytes} (hleft : key.IsBlocks left)
    (hright : key.IsBlocks right) : key.IsBlocks (left ++ right) where
  ne_nil := List.append_ne_nil_of_left_ne_nil hleft.ne_nil right
  dvd := by
    rw [List.length_append]
    exact Nat.dvd_add hleft.dvd hright.dvd

/-- Two parts of whole blocks decrypt to what they decrypt to alone. -/
theorem IsBlocks.decrypt_append_eq_ok_iff {left right : Bytes} (hleft : key.IsBlocks left)
    (hright : key.IsBlocks right) :
    key.decrypt padding (left ++ right) = .ok plain ↔
      ∃ front back, key.decrypt padding left = .ok front ∧ key.decrypt padding right = .ok back ∧
        plain = front ++ back := by
  obtain ⟨leftBlocks, hleftNe, hleftSize, rfl⟩ := hleft.exists_eq_flatten
  obtain ⟨rightBlocks, hrightNe, hrightSize, rfl⟩ := hright.exists_eq_flatten
  rw [← List.flatten_append, decrypt_flatten_eq_ok_iff
    (List.append_ne_nil_of_left_ne_nil hleftNe rightBlocks)
    (List.forall_mem_append.mpr ⟨hleftSize, hrightSize⟩)]
  simp only [decrypt_flatten_eq_ok_iff hleftNe hleftSize,
    decrypt_flatten_eq_ok_iff hrightNe hrightSize, List.forall_mem_append, List.flatMap_append]
  constructor
  · rintro ⟨⟨hfront, hback⟩, rfl⟩
    exact ⟨_, _, ⟨hfront, rfl⟩, ⟨hback, rfl⟩, rfl⟩
  · rintro ⟨_, _, ⟨hfront, rfl⟩, ⟨hback, rfl⟩, rfl⟩
    exact ⟨⟨hfront, hback⟩, rfl⟩

theorem IsBlocks.decrypt_append_eq_error {left right : Bytes} {e : BlockError}
    (hleft : key.IsBlocks left) (hright : key.IsBlocks right)
    (h : key.decrypt padding left = .error e ∨ key.decrypt padding right = .error e) :
    e = .badBlock ∧ key.decrypt padding (left ++ right) = .error .badBlock := by
  have he : e = .badBlock := h.elim hleft.error_of_decrypt hright.error_of_decrypt
  refine ⟨he, ?_⟩
  cases hwhole : key.decrypt padding (left ++ right) with
  | error cause => rw [(hleft.append hright).error_of_decrypt hwhole]
  | ok plain =>
    obtain ⟨front, back, hfront, hback, -⟩ := (hleft.decrypt_append_eq_ok_iff hright).mp hwhole
    rw [hfront, hback] at h
    rcases h with h | h <;> cases h

theorem ne_nil_of_decrypt (h : key.decrypt padding blocks.flatten = .ok plain) : blocks ≠ [] := by
  rintro rfl
  cases h

/-- Blocks of a ciphertext that decrypts, in any order and number, decrypt to the chunks that they
have in it. -/
theorem decrypt_rearranged {rearranged : List Bytes}
    (hblocks : ∀ block ∈ blocks, block.length = key.size)
    (h : key.decrypt padding blocks.flatten = .ok plain) (hne : rearranged ≠ [])
    (hsubset : rearranged ⊆ blocks) :
    key.decrypt padding rearranged.flatten = .ok (rearranged.flatMap (key.chunkOf padding)) := by
  have hchunks := ((decrypt_flatten_eq_ok_iff (ne_nil_of_decrypt h) hblocks).mp h).1
  exact (decrypt_flatten_eq_ok_iff hne fun block hmem => hblocks block (hsubset hmem)).mpr
    ⟨fun block hmem => hchunks block (hsubset hmem), rfl⟩

end Rsa.PrivateKey

namespace Transform

open Rsa

/-- Decryption under a private key distributes over parts of whole blocks: the whole decrypts
exactly if each part does, to what the parts decrypt to, and where a part fails the whole fails with
the same failure.  What a block decrypts to is its own: blocks of a ciphertext that decrypts can be
repeated, moved and left out, as long as one is left, and what remains decrypts. -/
theorem rsa_decrypts_blockwise (padding : Padding) (key : PrivateKey) :
    (∀ left right, key.IsBlocks left → key.IsBlocks right →
      (∀ plain, (rsa padding).decrypt (.rsaPrivate key) (left ++ right) = .ok plain ↔
        ∃ front back, (rsa padding).decrypt (.rsaPrivate key) left = .ok front ∧
          (rsa padding).decrypt (.rsaPrivate key) right = .ok back ∧ plain = front ++ back) ∧
      ∀ e, (rsa padding).decrypt (.rsaPrivate key) left = .error e ∨
          (rsa padding).decrypt (.rsaPrivate key) right = .error e →
        (∃ fault, e = .failure fault) ∧
          (rsa padding).decrypt (.rsaPrivate key) (left ++ right) = .error e) ∧
    ∃ chunkOf : Bytes → Bytes, ∀ blocks plain, (∀ block ∈ blocks, block.length = key.size) →
      (rsa padding).decrypt (.rsaPrivate key) blocks.flatten = .ok plain →
      plain = blocks.flatMap chunkOf ∧
        ∀ rearranged : List Bytes, rearranged ≠ [] → rearranged ⊆ blocks →
          (rsa padding).decrypt (.rsaPrivate key) rearranged.flatten =
            .ok (rearranged.flatMap chunkOf) := by
  simp only [decrypt_rsa, Outcome.mapError_eq_ok, Outcome.mapError_eq_error]
  refine ⟨?_, key.chunkOf padding, ?_⟩
  · intro left right hleft hright
    refine ⟨fun plain => hleft.decrypt_append_eq_ok_iff hright, ?_⟩
    intro e h
    have hcause : ∃ cause, (key.decrypt padding left = .error cause ∨
        key.decrypt padding right = .error cause) ∧ ofRsaError cause = e := by
      simpa only [or_and_right, exists_or] using h
    obtain ⟨cause, hcause, rfl⟩ := hcause
    obtain ⟨rfl, hwhole⟩ := hleft.decrypt_append_eq_error hright hcause
    exact ⟨⟨.badPadding, rfl⟩, _, hwhole, rfl⟩
  · intro blocks plain hblocks h
    exact ⟨((PrivateKey.decrypt_flatten_eq_ok_iff (PrivateKey.ne_nil_of_decrypt h) hblocks).mp h).2,
      fun _ => PrivateKey.decrypt_rearranged hblocks h⟩

/-- The block of one byte under the key of twelve bytes, behind a padding of 0xFF. -/
def oneByteBlock (b : Byte) : Bytes :=
  twelveByteKey.publicKey.encryptBlock .pkcs1 ⟨fun _ => 0, fun _ => ⟨0xFF, by decide⟩⟩ [b]

theorem decrypt_oneByteBlock (b : Byte) :
    (rsa .pkcs1).decrypt (.rsaPrivate twelveByteKey) (oneByteBlock b) = .ok [b] := by
  have hroom : [b].length + Padding.pkcs1.overhead ≤ twelveByteKey.size := by
    change 12 ≤ twelveByteKey.size
    decide +kernel
  have hdecrypts := PrivateKey.decrypt_encryptChunks
    (PrivateKey.recoversChunks primeFactors_twelveByteKey .pkcs1) (List.cons_ne_nil [b] [])
    (List.forall_mem_singleton.mpr hroom) ⟨fun _ => 0, fun _ => ⟨0xFF, by decide⟩⟩
  rw [PublicKey.encryptChunks, PublicKey.encryptChunks, List.append_nil] at hdecrypts
  rw [decrypt_rsa, oneByteBlock, hdecrypts]
  rfl

/-- Two blocks together, the second one repeated in front of them, and both behind a block of zeros,
which has no chunk. -/
theorem rsa_decrypts_blockwise_two_bytes :
    (rsa .pkcs1).decrypt (.rsaPrivate twelveByteKey) (oneByteBlock 104 ++ oneByteBlock 105) =
        .ok [104, 105] ∧
      (rsa .pkcs1).decrypt (.rsaPrivate twelveByteKey)
          [oneByteBlock 105, oneByteBlock 104, oneByteBlock 105].flatten = .ok [105, 104, 105] ∧
      ∃ fault, (rsa .pkcs1).decrypt (.rsaPrivate twelveByteKey)
          (List.replicate 12 0 ++ (oneByteBlock 104 ++ oneByteBlock 105)) =
        .error (.failure fault) := by
  have hlength : ∀ b, (oneByteBlock b).length = twelveByteKey.size :=
    fun b => PublicKey.length_encryptBlock .pkcs1 _ [b]
  have hblock : ∀ b, twelveByteKey.IsBlocks (oneByteBlock b) :=
    fun b => ⟨List.ne_nil_of_length_pos (hlength b ▸ twelveByteKey.size_pos), by rw [hlength b]⟩
  have hzeros : twelveByteKey.IsBlocks (List.replicate 12 0) := ⟨by decide, by decide +kernel⟩
  obtain ⟨hparts, chunkOf, hchunks⟩ := rsa_decrypts_blockwise .pkcs1 twelveByteKey
  have hwhole := ((hparts _ _ (hblock 104) (hblock 105)).1 [104, 105]).mpr
    ⟨_, _, decrypt_oneByteBlock 104, decrypt_oneByteBlock 105, rfl⟩
  refine ⟨hwhole, ?_, ?_⟩
  · have hchunkOf : ∀ b, chunkOf (oneByteBlock b) = [b] := by
      intro b
      have hsingle := decrypt_oneByteBlock b
      rw [← List.append_nil (oneByteBlock b)] at hsingle
      have hplain := (hchunks [oneByteBlock b] [b] (List.forall_mem_singleton.mpr (hlength b))
        hsingle).1
      rw [hplain, List.flatMap_singleton]
    have hsizes : ∀ block ∈ [oneByteBlock 104, oneByteBlock 105],
        block.length = twelveByteKey.size :=
      List.forall_mem_cons.mpr ⟨hlength 104, List.forall_mem_singleton.mpr (hlength 105)⟩
    rw [← List.append_nil (oneByteBlock 105)] at hwhole
    rw [(hchunks _ [104, 105] hsizes hwhole).2 _ (List.cons_ne_nil _ _) (by simp)]
    simp [hchunkOf]
  · obtain ⟨e, hfailed⟩ : ∃ e,
        (rsa .pkcs1).decrypt (.rsaPrivate twelveByteKey) (List.replicate 12 0) = .error e := by
      rw [← Outcome.toOption_eq_none]
      decide +kernel
    obtain ⟨⟨fault, rfl⟩, hlost⟩ := (hparts _ _ hzeros
      ((hblock 104).append (hblock 105))).2 e (.inl hfailed)
    exact ⟨fault, hlost⟩

end Transform

end CipherVault
