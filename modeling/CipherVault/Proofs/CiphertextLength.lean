import CipherVault.Proofs.Transform
/-!
# Lengths of ciphertexts

Under a symmetric transform the length of a ciphertext depends on the transform and on the length of
the plaintext only: whole blocks after padding, or a tag behind as many bytes.
-/

namespace CipherVault

namespace Pkcs7

theorem length_pad (bs : Bytes) : (pad bs).length = 16 * (bs.length / 16 + 1) := by
  rw [pad, List.length_append, List.length_replicate, padLength]
  omega

end Pkcs7

namespace Aes

@[simp]
theorem length_chain (schedule : Schedule) (previous : Block) (blocks : List Block) :
    (chain schedule previous blocks).length = blocks.length := by
  induction blocks generalizing previous with
  | nil => rfl
  | cons block rest ih => rw [chain, List.length_cons, List.length_cons, ih]

namespace Mode

/-- A mode encrypts block by block. -/
theorem length_runBlocks {mode : Mode} {schedule : Schedule} {iv : Bytes}
    {blocks sealedBlocks : List Block}
    (h : mode.runBlocks schedule.encrypt (chain schedule) iv blocks = .ok sealedBlocks) :
    sealedBlocks.length = blocks.length := by
  cases mode with
  | ecb =>
    cases h
    exact List.length_map _
  | cbc =>
    rw [runBlocks] at h
    split at h
    · cases h
      exact length_chain _ _ _
    · cases h

theorem length_encrypt {mode : Mode} {padding : Padding} {schedule : Schedule}
    {iv plain data : Bytes} (h : mode.encrypt padding schedule iv plain = .ok data) :
    data.length = (padding.apply plain).length := by
  obtain ⟨blocks, sealedBlocks, hblocks, hrun, rfl⟩ := encrypt_eq_ok_iff.mp h
  rw [← hblocks, length_blockBytes, length_blockBytes, length_runBlocks hrun]

end Mode

end Aes

namespace Transform

/-- The length of the ciphertext of `length` bytes, if it depends on nothing else. -/
def ciphertextLength? (transform : Transform) (length : Nat) : Option Nat :=
  match transform with
  | aes _ .pkcs7 => some (16 * (length / 16 + 1))
  | aes _ .none => some length
  | aesGcm | chaCha20Poly1305 => some (length + tagLength)
  | rsa _ => none

variable {transform : Transform} {key : KeyMaterial} {entropy : Entropy} {iv plain data : Bytes}

theorem Enciphers.ciphertextLength?_eq (h : transform.Enciphers key iv plain data) :
    transform.ciphertextLength? plain.length = some data.length := by
  cases transform with
  | aes mode padding =>
    obtain ⟨schedule, -, hdata⟩ := h
    rw [Aes.Mode.length_encrypt hdata]
    cases padding with
    | pkcs7 => exact congrArg some (Pkcs7.length_pad plain).symm
    | none => rfl
  | aesGcm =>
    obtain ⟨schedule, -, hdata⟩ := h
    rw [Gcm.length_encrypt hdata]
    rfl
  | chaCha20Poly1305 =>
    obtain ⟨secret, -, hdata⟩ := h
    rw [ChaChaPoly.length_encrypt hdata]
    rfl
  | rsa padding => cases h

theorem length_encryptWith (h : transform.isSymmetric = true)
    (hdata : transform.encryptWith key entropy iv plain = .ok data) :
    transform.ciphertextLength? plain.length = some data.length :=
  ((encryptWith_eq_ok_iff h).mp hdata).1.ciphertextLength?_eq

/-- Payloads that decrypt to plaintexts of one length have one length. -/
theorem length_payload_of_decrypt (h : transform.isSymmetric = true) {payload plain : Bytes}
    (hplain : transform.decrypt key payload = .ok plain) :
    transform.ciphertextLength? plain.length = some (payload.length - transform.ivLength) := by
  have henciphers := enciphers_of_decryptWith h (decrypt_eq_ok_iff.mp hplain).2
  rw [henciphers.ciphertextLength?_eq, List.length_drop]

/-- Under one transform and key, payloads of one plaintext have one length. -/
theorem length_eq_of_decrypt (h : transform.isSymmetric = true) {left right plain : Bytes}
    (hleft : transform.decrypt key left = .ok plain)
    (hright : transform.decrypt key right = .ok plain) : left.length = right.length := by
  have hlengths := (length_payload_of_decrypt h hleft).symm.trans
    (length_payload_of_decrypt h hright)
  have hleftLong := (decrypt_eq_ok_iff.mp hleft).1
  have hrightLong := (decrypt_eq_ok_iff.mp hright).1
  rw [Option.some.injEq] at hlengths
  omega

end Transform

end CipherVault
