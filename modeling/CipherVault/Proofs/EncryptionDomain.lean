import CipherVault.Proofs.EncryptionRefusal
/-!
# What a symmetric transform encrypts

A symmetric transform looks at the vector, then at the key, then at the data, and encrypts whatever
passes.  The vector is judged without key and data.  The key is judged without the data, and as
decryption judges it.  How long a ciphertext is, the length of the data says beforehand.
-/

namespace CipherVault.Transform

/-! ## Vectors -/

/-- Whether a pinned vector can be used. -/
def FitsIv (transform : Transform) (iv : Bytes) : Prop :=
  transform.ivLength ≠ 0 ∧ iv.length = transform.ivLength

instance (transform : Transform) (iv : Bytes) : Decidable (transform.FitsIv iv) :=
  inferInstanceAs (Decidable (_ ∧ _))

/-- What is wrong with a pinned vector that cannot. -/
def ivFault (transform : Transform) (iv : Bytes) : ParameterFault :=
  if transform.ivLength = 0 then .ivNotTaken transform else .ivLength transform iv.length

/-- The vector of an encryption: the pinned one, or one that is drawn if the transform has one. -/
def usedIv (transform : Transform) (entropy : Entropy) (pinned : Option Bytes) : Option Bytes :=
  if transform.ivLength = 0 then none
  else some (pinned.getD (entropy.bytes transform.ivLength))

variable {transform : Transform} {key : KeyMaterial} {entropy : Entropy} {pinned : Option Bytes}
  {data : Bytes}

theorem prepareIv_of_not_fitsIv {iv : Bytes} (h : ¬transform.FitsIv iv) :
    transform.prepareIv entropy (some iv) = .error (.illegal (transform.ivFault iv)) := by
  rw [prepareIv, ivFault]
  by_cases hzero : transform.ivLength = 0
  · rw [if_pos hzero, if_pos hzero]
  · have hlength : ¬iv.length = transform.ivLength := fun hlength => h ⟨hzero, hlength⟩
    rw [if_neg hzero, if_neg hzero, if_neg hlength]

theorem prepareIv_of_fitsIv (h : ∀ iv ∈ pinned, transform.FitsIv iv) :
    transform.prepareIv entropy pinned = .ok (transform.usedIv entropy pinned) := by
  cases pinned with
  | none =>
    rw [prepareIv, usedIv]
    split
    · rfl
    · rfl
  | some iv =>
    obtain ⟨hpos, hlength⟩ := h iv rfl
    rw [prepareIv, usedIv, if_neg hpos, if_pos hlength, if_neg hpos]
    rfl

theorem length_usedIv (h : ∀ iv ∈ pinned, transform.FitsIv iv) (entropy : Entropy) :
    ((transform.usedIv entropy pinned).getD []).length = transform.ivLength :=
  prepareIv_eq_ok (prepareIv_of_fitsIv h)

/-! ## Encryption -/

theorem encrypt_of_not_fitsIv {iv : Bytes} (h : ¬transform.FitsIv iv) :
    transform.encrypt key entropy (some iv) data = .error (.illegal (transform.ivFault iv)) := by
  rw [encrypt, prepareIv_of_not_fitsIv h]
  rfl

theorem encrypt_of_fitsIv (h : ∀ iv ∈ pinned, transform.FitsIv iv) :
    transform.encrypt key entropy pinned data =
      (transform.encryptWith key entropy ((transform.usedIv entropy pinned).getD []) data).map
        (⟨transform.usedIv entropy pinned, ·⟩) := by
  rw [encrypt, prepareIv_of_fitsIv h]
  rfl

/-- What passes the three checks is encrypted under its vector, to a ciphertext whose length is
known beforehand. -/
theorem exists_encrypt (hsymmetric : transform.isSymmetric = true)
    (hiv : ∀ iv ∈ pinned, transform.FitsIv iv) (hadmits : transform.Admits key.shape)
    (htakes : transform.Takes data.length) :
    ∃ ciphertext, transform.encrypt key entropy pinned data =
        .ok ⟨transform.usedIv entropy pinned, ciphertext⟩ ∧
      transform.ciphertextLength? data.length = some ciphertext.length := by
  obtain ⟨ciphertext, hciphertext⟩ :=
    exists_encryptWith hsymmetric hadmits htakes (length_usedIv hiv entropy)
  refine ⟨ciphertext, ?_, length_encryptWith hsymmetric hciphertext⟩
  rw [encrypt_of_fitsIv hiv, hciphertext]
  rfl

/-- Of a payload that holds a vector, decryption calls a key illegal if it does not fit, and has
nothing else to call illegal. -/
theorem decrypt_eq_illegal_iff {payload : Bytes} {fault : ParameterFault}
    (hlong : transform.ivLength ≤ payload.length) :
    transform.decrypt key payload = .error (.illegal fault) ↔
      ¬transform.Admits key.shape ∧ fault = transform.keyFault key.shape := by
  have hnotShort := Nat.not_lt.mpr hlong
  constructor
  · intro h
    have herror := error_of_decrypt h
    rw [decryptionError, if_neg hnotShort] at herror
    split at herror
    · cases herror
    · next hadmits => exact ⟨hadmits, CipherError.illegal.inj herror⟩
  · rintro ⟨hadmits, rfl⟩
    rw [decrypt, if_neg hnotShort, decryptWith_of_not_admits hadmits]

/-- A symmetric transform refuses a vector that does not fit whatever key and data are, then a key
that does not fit whatever the data are, then data that are not whole blocks where none are made of
them, or longer than an authenticated cipher takes.  It encrypts all else, under the pinned vector
or one that it draws, to a ciphertext whose length the length of the data gives.  Decryption refuses
the same keys for the same reason. -/
theorem encrypt_exactly_accepted (transform : Transform) (hsymmetric : transform.isSymmetric = true)
    (key : KeyMaterial) (entropy : Entropy) (pinned : Option Bytes) (data : Bytes) :
    (∀ iv ∈ pinned, ¬transform.FitsIv iv →
      transform.encrypt key entropy pinned data = .error (.illegal (transform.ivFault iv))) ∧
    ((∀ iv ∈ pinned, transform.FitsIv iv) →
      (¬transform.Admits key.shape →
        transform.encrypt key entropy pinned data =
          .error (.illegal (transform.keyFault key.shape))) ∧
      (transform.Admits key.shape →
        (¬transform.Takes data.length →
          transform.encrypt key entropy pinned data =
            .error (.failure (transform.plainFault data.length))) ∧
        (transform.Takes data.length →
          ∃ ciphertext, transform.encrypt key entropy pinned data =
              .ok ⟨transform.usedIv entropy pinned, ciphertext⟩ ∧
            transform.ciphertextLength? data.length = some ciphertext.length))) ∧
    ∀ payload fault, transform.ivLength ≤ payload.length →
      (transform.decrypt key payload = .error (.illegal fault) ↔
        ¬transform.Admits key.shape ∧ fault = transform.keyFault key.shape) := by
  refine ⟨?_, ?_, fun payload fault => decrypt_eq_illegal_iff⟩
  · intro iv hpinned hiv
    rw [Option.mem_def.mp hpinned]
    exact encrypt_of_not_fitsIv hiv
  · intro hiv
    refine ⟨?_, fun hadmits => ⟨?_, exists_encrypt hsymmetric hiv hadmits⟩⟩
    · intro hadmits
      rw [encrypt_of_fitsIv hiv, encryptWith_of_not_admits hsymmetric hadmits]
      rfl
    · intro htakes
      rw [encrypt_of_fitsIv hiv, encryptWith_of_not_takes hadmits htakes]
      rfl

/-- Blocks that are chained without padding: a vector of one byte, a key of five and data of
seventeen are refused in this order, and 32 bytes are encrypted under a vector that is drawn. -/
theorem encrypt_exactly_accepted_two_blocks :
    (aes .cbc .none).encrypt (.ofSecret (List.replicate 5 7)) ⟨fun _ => 9, fun _ => ⟨1, by decide⟩⟩
        (some [0]) (List.replicate 17 1) = .error (.illegal (.ivLength (aes .cbc .none) 1)) ∧
    (aes .cbc .none).encrypt (.ofSecret (List.replicate 5 7)) ⟨fun _ => 9, fun _ => ⟨1, by decide⟩⟩
        none (List.replicate 17 1) = .error (.illegal (.aesKeyLength 5)) ∧
    (aes .cbc .none).decrypt (.ofSecret (List.replicate 5 7)) (List.replicate 16 0) =
      .error (.illegal (.aesKeyLength 5)) ∧
    (aes .cbc .none).encrypt (.ofSecret (List.replicate 16 7))
        ⟨fun _ => 9, fun _ => ⟨1, by decide⟩⟩ none (List.replicate 17 1) =
      .error (.failure (.notAligned 17)) ∧
    ∃ ciphertext, (aes .cbc .none).encrypt (.ofSecret (List.replicate 16 7))
        ⟨fun _ => 9, fun _ => ⟨1, by decide⟩⟩ none (List.replicate 32 1) =
      .ok ⟨some (List.replicate 16 9), ciphertext⟩ ∧ ciphertext.length = 32 := by
  obtain ⟨hiv, -, -⟩ := encrypt_exactly_accepted (aes .cbc .none) rfl
    (.ofSecret (List.replicate 5 7)) ⟨fun _ => 9, fun _ => ⟨1, by decide⟩⟩ (some [0])
    (List.replicate 17 1)
  obtain ⟨-, hshort, hdecrypt⟩ := encrypt_exactly_accepted (aes .cbc .none) rfl
    (.ofSecret (List.replicate 5 7)) ⟨fun _ => 9, fun _ => ⟨1, by decide⟩⟩ none
    (List.replicate 17 1)
  obtain ⟨-, hodd, -⟩ := encrypt_exactly_accepted (aes .cbc .none) rfl
    (.ofSecret (List.replicate 16 7)) ⟨fun _ => 9, fun _ => ⟨1, by decide⟩⟩ none
    (List.replicate 17 1)
  obtain ⟨-, hwhole, -⟩ := encrypt_exactly_accepted (aes .cbc .none) rfl
    (.ofSecret (List.replicate 16 7)) ⟨fun _ => 9, fun _ => ⟨1, by decide⟩⟩ none
    (List.replicate 32 1)
  obtain ⟨ciphertext, hciphertext, hlength⟩ := ((hwhole nofun).2 (by decide)).2 (by decide)
  refine ⟨hiv [0] rfl (by decide), (hshort nofun).1 (by decide), ?_,
    ((hodd nofun).2 (by decide)).1 (by decide), ciphertext, hciphertext, ?_⟩
  · exact (hdecrypt _ _ (by decide)).mpr ⟨by decide, rfl⟩
  · exact (Option.some.inj hlength).symm

end CipherVault.Transform
