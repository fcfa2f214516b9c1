import CipherVault.Proofs.Transform
/-!
# Failed decryptions tell nothing of key or data

Under one transform, what a failed decryption reports depends on the shape of the key and on the
length of the payload only: a wrong key, a changed byte and a wrong padding have one error.  With a
key that fits and a payload that holds a vector, this error is a failure of the data.
-/

namespace CipherVault

/-- What decryption may tell of a key: the length of a secret, the length of the blocks of a private
key, nothing of a public key. -/
inductive KeyShape where
  | secret (length : Nat)
  | rsaPrivate (size : Nat)
  | rsaPublic
deriving DecidableEq, Repr

def KeyMaterial.shape : KeyMaterial → KeyShape
  | secret key => .secret key.length
  | rsaPrivate key => .rsaPrivate key.size
  | rsaPublic _ => .rsaPublic

/-! ## Ciphers -/

namespace Aes

theorem Schedule.ofKey?_eq_none_iff {key : Bytes} :
    ofKey? key = none ↔ ¬(key.length = 16 ∨ key.length = 24 ∨ key.length = 32) := by
  rw [ofKey?]
  split
  · next hlength => simp [hlength]
  · next hlength => simp [hlength]

/-- Under a whole vector a mode has one reason to refuse. -/
theorem Mode.refusal_of_decrypt {mode : Mode} {padding : Padding} {schedule : Schedule}
    {iv data : Bytes} {e : ModeError} (hiv : mode = .cbc → iv.length = 16)
    (h : mode.decrypt padding schedule iv data = .error e) : e = padding.refusal := by
  rw [decrypt] at h
  split at h
  · cases h
    rfl
  · next blocks hblocks =>
    obtain ⟨plain, hplain⟩ : ∃ plain,
        mode.runBlocks schedule.decrypt (unchain schedule) iv blocks = .ok plain := by
      cases mode with
      | ecb => exact ⟨_, rfl⟩
      | cbc =>
        obtain ⟨start, hstart⟩ := exists_block? (hiv rfl)
        exact ⟨_, by rw [runBlocks, hstart]⟩
    rw [hplain, Outcome.ok_bind] at h
    cases padding with
    | none => cases h
    | pkcs7 =>
      split at h
      · cases h
      · cases h
        rfl

end Aes

/-- Under a whole nonce an authenticated cipher has one reason to refuse. -/
theorem Aead.unauthenticated_of_openWith {crypt tag : Bytes → Bytes} {nonce data : Bytes}
    {e : AeadError} (hnonce : nonce.length = nonceLength)
    (h : openWith crypt tag nonce data = .error e) : e = .unauthenticated := by
  rw [openWith, if_pos hnonce] at h
  split at h
  · cases h
    rfl
  split at h
  · cases h
  · cases h
    rfl

/-- The error of a private key depends on lengths only. -/
theorem Rsa.PrivateKey.error_of_decrypt {key : PrivateKey} {padding : Padding} {data : Bytes}
    {e : BlockError} (h : key.decrypt padding data = .error e) :
    e = if data.length = 0 ∨ data.length % key.size ≠ 0 then .notBlocks data.length key.size
      else .badBlock := by
  simp only [decrypt, List.isEmpty_iff_length_eq_zero] at h
  split at h
  · next hblocks =>
    cases h
    rw [if_pos hblocks]
  · next hblocks =>
    split at h
    · cases h
    · cases h
      rw [if_neg hblocks]

namespace Transform

/-! ## Transforms -/

/-- Whether keys of a shape can decrypt under a transform. -/
def Admits : Transform → KeyShape → Prop
  | aes .., .secret length | aesGcm, .secret length => length = 16 ∨ length = 24 ∨ length = 32
  | chaCha20Poly1305, .secret length => length = 32
  | rsa _, .rsaPrivate _ => True
  | _, _ => False

instance (transform : Transform) (shape : KeyShape) : Decidable (transform.Admits shape) := by
  unfold Admits
  split <;> infer_instance

/-- What is wrong with a key that cannot. -/
def keyFault (transform : Transform) (shape : KeyShape) : ParameterFault :=
  match transform, shape with
  | aes .., .secret length | aesGcm, .secret length => .aesKeyLength length
  | chaCha20Poly1305, .secret _ => .chaChaKeyLength
  | rsa _, _ => .rsaPrivateKeyNeeded transform
  | _, _ => .secretNeeded transform

/-- What is wrong with a ciphertext of `length` bytes that does not decrypt under a key that can. -/
def dataFault (transform : Transform) (shape : KeyShape) (length : Nat) : CryptoFault :=
  match transform, shape with
  | aes _ .none, _ => .notAligned length
  | aesGcm, _ | chaCha20Poly1305, _ => .unauthenticated
  | rsa _, .rsaPrivate size =>
    if length = 0 ∨ length % size ≠ 0 then .notRsaBlocks length size else .badPadding
  | _, _ => .badPadding

/-- The error of every failed decryption of a payload of `length` bytes. -/
def decryptionError (transform : Transform) (shape : KeyShape) (length : Nat) : CipherError :=
  if length < transform.ivLength then .failure (.payloadTooShort length transform.ivLength)
  else if transform.Admits shape then
    .failure (transform.dataFault shape (length - transform.ivLength))
  else .illegal (transform.keyFault shape)

variable {transform : Transform} {key : KeyMaterial} {iv data payload : Bytes} {e : CipherError}

theorem exists_aesSchedule {key : SecretKey}
    (h : key.length = 16 ∨ key.length = 24 ∨ key.length = 32) (transform : Transform) :
    ∃ schedule, transform.aesSchedule (.secret key) = .ok schedule := by
  cases hschedule : Aes.Schedule.ofKey? key.bytes with
  | none => exact absurd h (Aes.Schedule.ofKey?_eq_none_iff.mp hschedule)
  | some schedule =>
    refine ⟨schedule, ?_⟩
    simp only [aesSchedule, secretKey, KeyMaterial.secret?, Outcome.ok_bind, hschedule]

theorem aesSchedule_eq_error {key : SecretKey}
    (h : ¬(key.length = 16 ∨ key.length = 24 ∨ key.length = 32)) (transform : Transform) :
    transform.aesSchedule (.secret key) = .error (.illegal (.aesKeyLength key.length)) := by
  have hschedule : Aes.Schedule.ofKey? key.bytes = none := Aes.Schedule.ofKey?_eq_none_iff.mpr h
  simp only [aesSchedule, secretKey, KeyMaterial.secret?, Outcome.ok_bind, hschedule]
  rfl

theorem chaChaKey_eq (transform : Transform) (key : SecretKey) :
    transform.chaChaKey (.secret key) =
      if key.length = ChaChaPoly.keyLength then .ok key.bytes
      else .error (.illegal .chaChaKeyLength) := rfl

/-- A key that cannot decrypt is refused, whatever the data. -/
theorem decryptWith_of_not_admits (h : ¬transform.Admits key.shape) (iv data : Bytes) :
    transform.decryptWith key iv data = .error (.illegal (transform.keyFault key.shape)) := by
  cases transform with
  | aes mode padding =>
    cases key with
    | secret key => rw [decryptWith, aesSchedule_eq_error h]; rfl
    | rsaPrivate key => rfl
    | rsaPublic key => rfl
  | aesGcm =>
    cases key with
    | secret key => rw [decryptWith, aesSchedule_eq_error h]; rfl
    | rsaPrivate key => rfl
    | rsaPublic key => rfl
  | chaCha20Poly1305 =>
    cases key with
    | secret key =>
      have hlength : ¬key.length = ChaChaPoly.keyLength := h
      rw [decryptWith, chaChaKey_eq, if_neg hlength]
      rfl
    | rsaPrivate key => rfl
    | rsaPublic key => rfl
  | rsa padding =>
    cases key with
    | secret key => rfl
    | rsaPrivate key => exact absurd trivial h
    | rsaPublic key => rfl

/-- Data above the limit fails like data that fails below it. -/
theorem error_of_limited {limit length : Nat} {fault : CryptoFault}
    {outcome : Except CipherError Bytes} (h : limited limit length fault outcome = .error e)
    (houtcome : outcome = .error e → e = .failure fault) : e = .failure fault := by
  rw [limited] at h
  split at h
  · exact houtcome h
  · cases h
    rfl

/-- Under a key that can decrypt and a whole vector, the data alone can be at fault, and there is
one way for it. -/
theorem error_of_decryptWith (hadmits : transform.Admits key.shape)
    (hiv : iv.length = transform.ivLength)
    (h : transform.decryptWith key iv data = .error e) :
    e = .failure (transform.dataFault key.shape data.length) := by
  cases transform with
  | aes mode padding =>
    cases key with
    | secret key =>
      obtain ⟨schedule, hschedule⟩ := exists_aesSchedule hadmits (aes mode padding)
      rw [decryptWith, hschedule, Outcome.ok_bind, Outcome.mapError_eq_error] at h
      obtain ⟨cause, hcause, rfl⟩ := h
      have hblock : mode = .cbc → iv.length = 16 := by
        intro hmode
        subst hmode
        exact hiv
      rw [Aes.Mode.refusal_of_decrypt hblock hcause]
      cases padding <;> rfl
    | rsaPrivate key => cases hadmits
    | rsaPublic key => cases hadmits
  | aesGcm =>
    cases key with
    | secret key =>
      obtain ⟨schedule, hschedule⟩ := exists_aesSchedule hadmits aesGcm
      rw [decryptWith, hschedule, Outcome.ok_bind] at h
      refine error_of_limited h fun hfailed => ?_
      obtain ⟨cause, hcause, rfl⟩ := Outcome.mapError_eq_error.mp hfailed
      rw [Aead.unauthenticated_of_openWith hiv hcause]
      rfl
    | rsaPrivate key => cases hadmits
    | rsaPublic key => cases hadmits
  | chaCha20Poly1305 =>
    cases key with
    | secret key =>
      have hlength : key.length = ChaChaPoly.keyLength := hadmits
      rw [decryptWith, chaChaKey_eq, if_pos hlength, Outcome.ok_bind] at h
      refine error_of_limited h fun hfailed => ?_
      obtain ⟨cause, hcause, rfl⟩ := Outcome.mapError_eq_error.mp hfailed
      rw [Aead.unauthenticated_of_openWith hiv hcause]
      rfl
    | rsaPrivate key => cases hadmits
    | rsaPublic key => cases hadmits
  | rsa padding =>
    cases key with
    | secret key => cases hadmits
    | rsaPrivate key =>
      obtain ⟨cause, hcause, rfl⟩ := Outcome.mapError_eq_error.mp h
      rw [Rsa.PrivateKey.error_of_decrypt hcause, KeyMaterial.shape, dataFault]
      split <;> rfl
    | rsaPublic key => cases hadmits

/-- The error is the same for all keys of one shape and all payloads of one length. -/
theorem error_of_decrypt (h : transform.decrypt key payload = .error e) :
    e = transform.decryptionError key.shape payload.length := by
  rw [decrypt] at h
  rw [decryptionError]
  split at h
  · next hshort =>
    cases h
    rw [if_pos hshort]
  · next hlong =>
    rw [if_neg hlong]
    by_cases hadmits : transform.Admits key.shape
    · have hiv : (payload.take transform.ivLength).length = transform.ivLength :=
        List.length_take_of_le (Nat.not_lt.mp hlong)
      rw [if_pos hadmits, error_of_decryptWith hadmits hiv h, List.length_drop]
    · rw [decryptWith_of_not_admits hadmits] at h
      cases h
      rw [if_neg hadmits]

/-- Two failed decryptions report the same, message included, if the payloads have one length and
the keys one shape: neither tells a wrong key from changed data or where a check failed.  Under a
key that fits, of a payload that holds a vector, the report is of the data and never of the
parameters. -/
theorem decrypt_errors_agree (transform : Transform) :
    (∀ (left right : KeyMaterial) (leftPayload rightPayload : Bytes)
        (leftError rightError : CipherError),
      left.shape = right.shape → leftPayload.length = rightPayload.length →
      transform.decrypt left leftPayload = .error leftError →
      transform.decrypt right rightPayload = .error rightError → leftError = rightError) ∧
    ∀ (key : KeyMaterial) (payload : Bytes) (e : CipherError),
      transform.Admits key.shape → transform.ivLength ≤ payload.length →
      transform.decrypt key payload = .error e → ∃ fault, e = .failure fault := by
  constructor
  · intro left right leftPayload rightPayload leftError rightError hshape hlength hleft hright
    rw [error_of_decrypt hleft, error_of_decrypt hright, hshape, hlength]
  · intro key payload e hadmits hlong h
    rw [error_of_decrypt h, decryptionError, if_neg (Nat.not_lt.mpr hlong), if_pos hadmits]
    exact ⟨_, rfl⟩

/-- A wrong key on the payload of two bytes, and the right one on a payload that was changed. -/
theorem decrypt_errors_agree_two_bytes :
    ∃ e fault, e = CipherError.failure fault ∧
      (aes .cbc .pkcs7).decrypt (.ofSecret (List.replicate 16 8))
        (List.replicate 16 0 ++
          [114, 252, 108, 175, 76, 198, 45, 27, 199, 195, 213, 73, 29, 85, 207, 50]) = .error e ∧
      (aes .cbc .pkcs7).decrypt (.ofSecret (List.replicate 16 7))
        (List.replicate 16 0 ++
          [114, 252, 108, 175, 76, 198, 45, 27, 199, 195, 213, 73, 29, 85, 207, 51]) = .error e := by
  have hwrongKey : ((aes .cbc .pkcs7).decrypt (.ofSecret (List.replicate 16 8))
      (List.replicate 16 0 ++
        [114, 252, 108, 175, 76, 198, 45, 27, 199, 195, 213, 73, 29, 85, 207, 50])).toOption =
          none := by
    decide +kernel
  have hchanged : ((aes .cbc .pkcs7).decrypt (.ofSecret (List.replicate 16 7))
      (List.replicate 16 0 ++
        [114, 252, 108, 175, 76, 198, 45, 27, 199, 195, 213, 73, 29, 85, 207, 51])).toOption =
          none := by
    decide +kernel
  obtain ⟨wrongKey, hwrongKey⟩ := Outcome.toOption_eq_none.mp hwrongKey
  obtain ⟨changed, hchanged⟩ := Outcome.toOption_eq_none.mp hchanged
  obtain ⟨hagree, hfailure⟩ := decrypt_errors_agree (aes .cbc .pkcs7)
  obtain rfl : wrongKey = changed := by
    apply hagree _ _ _ _ _ _ _ _ hwrongKey hchanged
    · rfl
    · rfl
  obtain ⟨fault, hfault⟩ : ∃ fault, wrongKey = .failure fault := by
    apply hfailure _ _ _ _ _ hwrongKey
    · exact .inl rfl
    · decide
  exact ⟨wrongKey, fault, hfault, hwrongKey, hchanged⟩

end Transform

end CipherVault
