import CipherVault.Proofs.CiphertextLength
import CipherVault.Proofs.DecryptionFailure
/-!
# What a symmetric encryption refuses

Behind its vector a symmetric transform refuses the keys that it could not decrypt with, and then
data that is no whole number of blocks where no padding is added, or more than an authenticated
cipher takes.  Everything else it encrypts.  So whether and why it refuses depends on the shape of
the key and the length of the data.
-/

namespace CipherVault

namespace Aes

/-- Whole blocks can be cut. -/
theorem exists_blockBytes {bs : Bytes} {count : Nat} (h : bs.length = 16 * count) :
    ∃ blocks, bs = blockBytes blocks := by
  induction count generalizing bs with
  | zero => exact ⟨[], List.length_eq_zero_iff.mp h⟩
  | succ count ih =>
    obtain ⟨block, rest, rfl⟩ := exists_block_append (show 16 ≤ bs.length by omega)
    have hrest : rest.length = 16 * count := by
      rw [List.length_append, Block.length_toBytes] at h
      omega
    obtain ⟨blocks, rfl⟩ := ih hrest
    exact ⟨block :: blocks, rfl⟩

theorem exists_blocks?_iff {bs : Bytes} :
    (∃ blocks, blocks? bs = some blocks) ↔ bs.length % 16 = 0 := by
  simp only [blocks?_eq_some_iff]
  constructor
  · rintro ⟨blocks, rfl⟩
    rw [length_blockBytes, Nat.mul_mod_right]
  · intro h
    exact exists_blockBytes (Nat.mul_div_cancel' (Nat.dvd_of_mod_eq_zero h)).symm

/-- Whether data of `length` bytes is whole blocks once it is padded. -/
def Padding.Fills : Padding → Nat → Prop
  | pkcs7, _ => True
  | none, length => length % 16 = 0

instance (padding : Padding) (length : Nat) : Decidable (padding.Fills length) :=
  match padding with
  | .pkcs7 => isTrue trivial
  | .none => Nat.decEq (length % 16) 0

theorem Padding.fills_iff {padding : Padding} {plain : Bytes} :
    padding.Fills plain.length ↔ (padding.apply plain).length % 16 = 0 := by
  cases padding with
  | pkcs7 =>
    refine iff_of_true trivial ?_
    rw [apply, Pkcs7.length_pad, Nat.mul_mod_right]
  | none => exact Iff.rfl

namespace Mode

variable {mode : Mode} {padding : Padding} {schedule : Schedule} {iv plain : Bytes}

theorem encrypt_of_not_fills (h : ¬padding.Fills plain.length) :
    mode.encrypt padding schedule iv plain = .error .notAligned := by
  rw [encrypt]
  split
  · rfl
  · next blocks hblocks =>
    rw [Padding.fills_iff, ← exists_blocks?_iff] at h
    exact absurd ⟨blocks, hblocks⟩ h

theorem exists_encrypt (hiv : mode = .cbc → iv.length = 16) (h : padding.Fills plain.length) :
    ∃ data, mode.encrypt padding schedule iv plain = .ok data := by
  obtain ⟨blocks, hblocks⟩ := exists_blocks?_iff.mpr (Padding.fills_iff.mp h)
  cases mode with
  | ecb => exact ⟨_, by rw [encrypt, hblocks]; rfl⟩
  | cbc =>
    obtain ⟨start, hstart⟩ := exists_block? (hiv rfl)
    exact ⟨_, by simp only [encrypt, hblocks, runBlocks, hstart]; rfl⟩

end Mode

end Aes

theorem Gcm.exists_encrypt {nonce : Bytes} (hnonce : nonce.length = nonceLength)
    (schedule : Aes.Schedule) (plain : Bytes) :
    ∃ data, encrypt schedule nonce plain = .ok data :=
  ⟨_, if_pos hnonce⟩

theorem ChaChaPoly.exists_encrypt {nonce : Bytes} (hnonce : nonce.length = nonceLength)
    (key plain : Bytes) : ∃ data, encrypt key nonce plain = .ok data :=
  ⟨_, if_pos hnonce⟩

namespace Transform

/-- Whether data of `length` bytes can be encrypted. -/
def Takes : Transform → Nat → Prop
  | aes _ padding, length => padding.Fills length
  | transform, length => transform.WithinLimit length

instance (transform : Transform) (length : Nat) : Decidable (transform.Takes length) :=
  match transform with
  | aes _ padding => inferInstanceAs (Decidable (padding.Fills length))
  | aesGcm => inferInstanceAs (Decidable (aesGcm.WithinLimit length))
  | chaCha20Poly1305 => inferInstanceAs (Decidable (chaCha20Poly1305.WithinLimit length))
  | rsa padding => inferInstanceAs (Decidable ((rsa padding).WithinLimit length))

/-- What is wrong with data of `length` bytes that cannot. -/
def plainFault (transform : Transform) (length : Nat) : CryptoFault :=
  match transform with
  | aesGcm => .gcmEncryption
  | chaCha20Poly1305 => .chaChaEncryption
  | aes .. | rsa _ => .notAligned length

/-- Why `length` bytes are not encrypted under a key of the given shape.  A key that does not fit is
reported before the data. -/
def encryptionError? (transform : Transform) (shape : KeyShape) (length : Nat) :
    Option CipherError :=
  if ¬transform.Admits shape then some (.illegal (transform.keyFault shape))
  else if ¬transform.Takes length then some (.failure (transform.plainFault length))
  else none

variable {transform : Transform} {key : KeyMaterial} {entropy : Entropy} {iv plain : Bytes}

theorem encryptWith_of_not_admits (hsymmetric : transform.isSymmetric = true)
    (h : ¬transform.Admits key.shape) :
    transform.encryptWith key entropy iv plain =
      .error (.illegal (transform.keyFault key.shape)) := by
  cases transform with
  | aes mode padding =>
    cases key with
    | secret key => rw [encryptWith, aesSchedule_eq_error h]; rfl
    | rsaPrivate key => rfl
    | rsaPublic key => rfl
  | aesGcm =>
    cases key with
    | secret key => rw [encryptWith, aesSchedule_eq_error h]; rfl
    | rsaPrivate key => rfl
    | rsaPublic key => rfl
  | chaCha20Poly1305 =>
    cases key with
    | secret key =>
      have hlength : ¬key.length = ChaChaPoly.keyLength := h
      rw [encryptWith, chaChaKey_eq, if_neg hlength]
      rfl
    | rsaPrivate key => rfl
    | rsaPublic key => rfl
  | rsa padding => cases hsymmetric

/-- A key that fits a symmetric transform is a secret. -/
theorem exists_secret_of_admits (hsymmetric : transform.isSymmetric = true)
    (h : transform.Admits key.shape) : ∃ secret, key = .secret secret := by
  cases key with
  | secret secret => exact ⟨secret, rfl⟩
  | rsaPrivate key =>
    cases transform with
    | rsa padding => cases hsymmetric
    | _ => cases h
  | rsaPublic key => cases transform <;> cases h

theorem encryptWith_of_not_takes (hadmits : transform.Admits key.shape)
    (h : ¬transform.Takes plain.length) :
    transform.encryptWith key entropy iv plain =
      .error (.failure (transform.plainFault plain.length)) := by
  cases transform with
  | aes mode padding =>
    obtain ⟨secret, rfl⟩ := exists_secret_of_admits rfl hadmits
    obtain ⟨schedule, hschedule⟩ := exists_aesSchedule hadmits (aes mode padding)
    rw [encryptWith, hschedule, Outcome.ok_bind, Aes.Mode.encrypt_of_not_fills h]
    rfl
  | aesGcm =>
    obtain ⟨secret, rfl⟩ := exists_secret_of_admits rfl hadmits
    obtain ⟨schedule, hschedule⟩ := exists_aesSchedule hadmits aesGcm
    rw [encryptWith, hschedule, Outcome.ok_bind]
    exact if_neg h
  | chaCha20Poly1305 =>
    obtain ⟨secret, rfl⟩ := exists_secret_of_admits rfl hadmits
    have hlength : secret.length = ChaChaPoly.keyLength := hadmits
    rw [encryptWith, chaChaKey_eq, if_pos hlength, Outcome.ok_bind]
    exact if_neg h
  | rsa padding => exact absurd trivial h

theorem exists_encryptWith (hsymmetric : transform.isSymmetric = true)
    (hadmits : transform.Admits key.shape) (htakes : transform.Takes plain.length)
    (hiv : iv.length = transform.ivLength) :
    ∃ data, transform.encryptWith key entropy iv plain = .ok data := by
  simp only [encryptWith_eq_ok_iff hsymmetric]
  obtain ⟨secret, rfl⟩ := exists_secret_of_admits hsymmetric hadmits
  cases transform with
  | aes mode padding =>
    obtain ⟨schedule, hschedule⟩ := exists_aesSchedule hadmits (aes mode padding)
    have hblock : mode = .cbc → iv.length = 16 := by
      intro hmode
      subst hmode
      exact hiv
    obtain ⟨data, hdata⟩ := Aes.Mode.exists_encrypt hblock htakes
    exact ⟨data, ⟨schedule, hschedule, hdata⟩, trivial⟩
  | aesGcm =>
    obtain ⟨schedule, hschedule⟩ := exists_aesSchedule hadmits aesGcm
    obtain ⟨data, hdata⟩ := Gcm.exists_encrypt hiv schedule plain
    exact ⟨data, ⟨schedule, hschedule, hdata⟩, htakes⟩
  | chaCha20Poly1305 =>
    have hlength : secret.length = ChaChaPoly.keyLength := hadmits
    obtain ⟨data, hdata⟩ := ChaChaPoly.exists_encrypt hiv secret.bytes plain
    exact ⟨data, ⟨secret.bytes, if_pos hlength, hdata⟩, htakes⟩
  | rsa padding => cases hsymmetric

theorem encryptWith_of_encryptionError? (hsymmetric : transform.isSymmetric = true)
    {e : CipherError} (h : transform.encryptionError? key.shape plain.length = some e) :
    transform.encryptWith key entropy iv plain = .error e := by
  rw [encryptionError?] at h
  split at h
  · next hadmits =>
    cases h
    exact encryptWith_of_not_admits hsymmetric hadmits
  · next hadmits =>
    split at h
    · next htakes =>
      cases h
      exact encryptWith_of_not_takes (Decidable.not_not.mp hadmits) htakes
    · cases h

/-- What is not refused is encrypted, to a ciphertext of the length that the transform gives it. -/
theorem exists_encryptWith_of_encryptionError? (hsymmetric : transform.isSymmetric = true)
    (hiv : iv.length = transform.ivLength)
    (h : transform.encryptionError? key.shape plain.length = none) :
    ∃ data, transform.encryptWith key entropy iv plain = .ok data ∧
      transform.ciphertextLength? plain.length = some data.length := by
  rw [encryptionError?] at h
  split at h
  · cases h
  · next hadmits =>
    split at h
    · cases h
    · next htakes =>
      obtain ⟨data, hdata⟩ := exists_encryptWith hsymmetric (Decidable.not_not.mp hadmits)
        (Decidable.not_not.mp htakes) hiv
      exact ⟨data, hdata, length_encryptWith hsymmetric hdata⟩

end Transform

end CipherVault
