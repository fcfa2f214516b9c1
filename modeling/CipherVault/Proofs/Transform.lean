import CipherVault.Proofs.Aead
import CipherVault.Proofs.Aes.Mode
import CipherVault.Transform.Cipher
/-!
# Symmetric transforms decrypt exactly the image of encryption

A payload decrypts to a plaintext that is short enough to be encrypted exactly if encrypting the
plaintext under the vector in front of the payload leads back to the payload.  The ciphers
contribute the inversion of their ciphertexts; what is left is that a prepared vector has the length
at which decryption splits it off.
-/

namespace CipherVault.Transform

variable {transform : Transform} {key : KeyMaterial} {entropy : Entropy}

/-- The initialization vector in front of a payload, for transforms that have one. -/
def leadingIv (transform : Transform) (payload : Bytes) : Option Bytes :=
  if transform.ivLength = 0 then none else some (payload.take transform.ivLength)

theorem prepareIv_eq_ok {pinned iv : Option Bytes}
    (h : transform.prepareIv entropy pinned = .ok iv) :
    (iv.getD []).length = transform.ivLength := by
  unfold prepareIv at h
  split at h
  · next bytes =>
    split at h
    · cases h
    split at h
    · next hlength =>
      cases h
      exact hlength
    · cases h
  · split at h
    · next hzero =>
      cases h
      exact hzero.symm
    · cases h
      exact Entropy.length_bytes entropy transform.ivLength

theorem prepareIv_leadingIv {payload : Bytes} (h : transform.ivLength ≤ payload.length) :
    transform.prepareIv entropy (transform.leadingIv payload) =
      .ok (transform.leadingIv payload) := by
  unfold leadingIv
  split
  · next hzero => rw [prepareIv, if_pos hzero]
  · next hpos =>
    rw [prepareIv, if_neg hpos, if_pos (List.length_take_of_le h)]

theorem leadingIv_getD (transform : Transform) (payload : Bytes) :
    (transform.leadingIv payload).getD [] = payload.take transform.ivLength := by
  unfold leadingIv
  split
  · next hzero =>
    rw [hzero]
    rfl
  · rfl

/-! ## Behind the vector -/

/-- Whether `length` bytes are short enough to be encrypted.  Authenticated ciphers have a limit. -/
def WithinLimit : Transform → Nat → Prop
  | aesGcm, length => length ≤ Gcm.maxPlaintext
  | chaCha20Poly1305, length => length ≤ ChaChaPoly.maxLength
  | _, _ => True

instance (transform : Transform) (length : Nat) : Decidable (transform.WithinLimit length) :=
  match transform with
  | aesGcm => Nat.decLe length Gcm.maxPlaintext
  | chaCha20Poly1305 => Nat.decLe length ChaChaPoly.maxLength
  | aes .. | rsa _ => isTrue trivial

/-- Under a key and a vector the cipher of a symmetric transform makes `data` of `plain`, limits
aside. -/
def Enciphers (transform : Transform) (key : KeyMaterial) (iv plain data : Bytes) : Prop :=
  match transform with
  | aes mode padding => ∃ schedule, transform.aesSchedule key = .ok schedule ∧
      mode.encrypt padding schedule iv plain = .ok data
  | aesGcm => ∃ schedule, transform.aesSchedule key = .ok schedule ∧
      Gcm.encrypt schedule iv plain = .ok data
  | chaCha20Poly1305 => ∃ secret, transform.chaChaKey key = .ok secret ∧
      ChaChaPoly.encrypt secret iv plain = .ok data
  | rsa _ => False

variable {iv plain data : Bytes}

theorem limited_eq_ok_iff {limit length : Nat} {fault : CryptoFault}
    {outcome : Except CipherError Bytes} :
    limited limit length fault outcome = .ok data ↔ outcome = .ok data ∧ length ≤ limit := by
  rw [limited]
  split
  · next hlimit => simp [hlimit]
  · next hlimit => simp [hlimit]

/-- A cipher makes one text of a plaintext. -/
theorem Enciphers.unique {other : Bytes} (h : transform.Enciphers key iv plain data)
    (hother : transform.Enciphers key iv plain other) : data = other := by
  cases transform with
  | rsa padding => cases h
  | _ =>
    obtain ⟨secret, hsecret, hdata⟩ := h
    obtain ⟨_, hsame, hother⟩ := hother
    obtain rfl := Except.ok.inj (hsecret.symm.trans hsame)
    exact Except.ok.inj (hdata.symm.trans hother)

theorem encryptWith_eq_ok_iff (h : transform.isSymmetric = true) :
    transform.encryptWith key entropy iv plain = .ok data ↔
      transform.Enciphers key iv plain data ∧ transform.WithinLimit plain.length := by
  cases transform with
  | aes mode padding =>
    simp only [encryptWith, Outcome.bind_eq_ok, Outcome.mapError_eq_ok, Enciphers, WithinLimit,
      and_true]
  | aesGcm =>
    simp only [encryptWith, Outcome.bind_eq_ok, limited_eq_ok_iff, Outcome.mapError_eq_ok,
      Enciphers, WithinLimit, ← and_assoc, exists_and_right]
  | chaCha20Poly1305 =>
    simp only [encryptWith, Outcome.bind_eq_ok, limited_eq_ok_iff, Outcome.mapError_eq_ok,
      Enciphers, WithinLimit, ← and_assoc, exists_and_right]
  | rsa padding => cases h

/-- What is decrypted is what the cipher makes of the plaintext. -/
theorem enciphers_of_decryptWith (h : transform.isSymmetric = true)
    (hplain : transform.decryptWith key iv data = .ok plain) :
    transform.Enciphers key iv plain data := by
  cases transform with
  | aes mode padding =>
    simp only [decryptWith, Outcome.bind_eq_ok, Outcome.mapError_eq_ok,
      Aes.Mode.decrypt_eq_ok_iff] at hplain
    exact hplain
  | aesGcm =>
    simp only [decryptWith, Outcome.bind_eq_ok, limited_eq_ok_iff, Outcome.mapError_eq_ok,
      Gcm.decrypt_eq_ok_iff] at hplain
    obtain ⟨schedule, hschedule, hdata, -⟩ := hplain
    exact ⟨schedule, hschedule, hdata⟩
  | chaCha20Poly1305 =>
    simp only [decryptWith, Outcome.bind_eq_ok, limited_eq_ok_iff, Outcome.mapError_eq_ok,
      ChaChaPoly.decrypt_eq_ok_iff] at hplain
    obtain ⟨secret, hsecret, hdata, -⟩ := hplain
    exact ⟨secret, hsecret, hdata⟩
  | rsa padding => cases h

/-- The limit of decryption is not below that of encryption. -/
theorem Enciphers.decryptWith (h : transform.Enciphers key iv plain data)
    (hlimit : transform.WithinLimit plain.length) :
    transform.decryptWith key iv data = .ok plain := by
  cases transform with
  | aes mode padding =>
    simp only [Transform.decryptWith, Outcome.bind_eq_ok, Outcome.mapError_eq_ok,
      Aes.Mode.decrypt_eq_ok_iff]
    exact h
  | aesGcm =>
    obtain ⟨schedule, hschedule, hdata⟩ := h
    have hlength : data.length - tagLength ≤ Gcm.maxCiphertext := by
      rw [Gcm.length_encrypt hdata, Nat.add_sub_cancel]
      exact Nat.le_trans hlimit (Nat.le_add_right _ _)
    simp only [Transform.decryptWith, Outcome.bind_eq_ok, limited_eq_ok_iff,
      Outcome.mapError_eq_ok, Gcm.decrypt_eq_ok_iff]
    exact ⟨schedule, hschedule, hdata, hlength⟩
  | chaCha20Poly1305 =>
    obtain ⟨secret, hsecret, hdata⟩ := h
    have hlength : data.length - tagLength ≤ ChaChaPoly.maxLength := by
      rw [ChaChaPoly.length_encrypt hdata, Nat.add_sub_cancel]
      exact hlimit
    simp only [Transform.decryptWith, Outcome.bind_eq_ok, limited_eq_ok_iff,
      Outcome.mapError_eq_ok, ChaChaPoly.decrypt_eq_ok_iff]
    exact ⟨secret, hsecret, hdata, hlength⟩
  | rsa padding => cases h

/-! ## Behind the checks of the vector -/

theorem encrypt_eq_ok_iff {pinned : Option Bytes} {plain : Bytes} {data : EncryptedData} :
    transform.encrypt key entropy pinned plain = .ok data ↔
      transform.prepareIv entropy pinned = .ok data.iv ∧
        transform.encryptWith key entropy (data.iv.getD []) plain = .ok data.ciphertext := by
  simp only [encrypt, Outcome.bind_eq_ok]
  constructor
  · intro h
    obtain ⟨iv, hiv, ciphertext, hciphertext, hdata⟩ := h
    cases hdata
    exact ⟨hiv, hciphertext⟩
  · intro h
    obtain ⟨hiv, hciphertext⟩ := h
    exact ⟨data.iv, hiv, data.ciphertext, hciphertext, rfl⟩

theorem decrypt_eq_ok_iff {payload plain : Bytes} :
    transform.decrypt key payload = .ok plain ↔
      transform.ivLength ≤ payload.length ∧
        transform.decryptWith key (payload.take transform.ivLength)
          (payload.drop transform.ivLength) = .ok plain := by
  rw [decrypt]
  split
  · next hshort => simp [Nat.not_le.mpr hshort]
  · next hlong => simp [Nat.not_lt.mp hlong]

/-- Decrypting undoes encrypting, whether the vector was pinned or drawn. -/
theorem decrypt_of_encrypt (h : transform.isSymmetric = true) {pinned : Option Bytes}
    {plain : Bytes} {data : EncryptedData}
    (hdata : transform.encrypt key entropy pinned plain = .ok data) :
    transform.decrypt key data.payload = .ok plain := by
  obtain ⟨hiv, hciphertext⟩ := encrypt_eq_ok_iff.mp hdata
  have hlength := prepareIv_eq_ok hiv
  rw [decrypt_eq_ok_iff, EncryptedData.payload]
  refine ⟨?_, ?_⟩
  · rw [List.length_append, hlength]
    exact Nat.le_add_right _ _
  · rw [List.take_left' hlength, List.drop_left' hlength]
    obtain ⟨henciphers, hlimit⟩ := (encryptWith_eq_ok_iff h).mp hciphertext
    exact henciphers.decryptWith hlimit

theorem encrypt_of_decrypt (h : transform.isSymmetric = true) (entropy : Entropy)
    {payload plain : Bytes} (hplain : transform.decrypt key payload = .ok plain)
    (hlimit : transform.WithinLimit plain.length) :
    transform.encrypt key entropy (transform.leadingIv payload) plain =
      .ok ⟨transform.leadingIv payload, payload.drop transform.ivLength⟩ := by
  obtain ⟨hlong, hdecrypts⟩ := decrypt_eq_ok_iff.mp hplain
  rw [encrypt_eq_ok_iff]
  refine ⟨prepareIv_leadingIv hlong, ?_⟩
  rw [leadingIv_getD]
  exact (encryptWith_eq_ok_iff h).mpr ⟨enciphers_of_decryptWith h hdecrypts, hlimit⟩

theorem payload_leadingIv (transform : Transform) (payload : Bytes) :
    (EncryptedData.mk (transform.leadingIv payload) (payload.drop transform.ivLength)).payload =
      payload := by
  rw [EncryptedData.payload, leadingIv_getD, List.take_append_drop]

/-- Payloads with one vector and one plaintext are the same. -/
theorem payload_unique (h : transform.isSymmetric = true) {left right : Bytes}
    (hleft : transform.decrypt key left = .ok plain)
    (hright : transform.decrypt key right = .ok plain)
    (hiv : left.take transform.ivLength = right.take transform.ivLength) : left = right := by
  have hleftData := enciphers_of_decryptWith h (decrypt_eq_ok_iff.mp hleft).2
  have hrightData := enciphers_of_decryptWith h (decrypt_eq_ok_iff.mp hright).2
  rw [hiv] at hleftData
  rw [← List.take_append_drop transform.ivLength left,
    ← List.take_append_drop transform.ivLength right, hiv, hleftData.unique hrightData]

/-- A symmetric transform decrypts exactly the image of its encryption: within the limit of
encryption, a payload is accepted for a plaintext just when the plaintext, encrypted under the
payload's own vector, is the payload.  So decrypting undoes encrypting, and no second payload with
the same vector has the same plaintext, be it as long as it may. -/
theorem decrypt_exactly_encrypted (transform : Transform)
    (hsymmetric : transform.isSymmetric = true) (key : KeyMaterial) (entropy : Entropy) :
    (∀ payload plain, transform.decrypt key payload = .ok plain ∧
        transform.WithinLimit plain.length ↔
      transform.ivLength ≤ payload.length ∧ ∃ data,
        transform.encrypt key entropy (transform.leadingIv payload) plain = .ok data ∧
          data.payload = payload) ∧
    (∀ pinned plain data, transform.encrypt key entropy pinned plain = .ok data →
      transform.decrypt key data.payload = .ok plain) ∧
    (∀ payload₁ payload₂ plain, transform.decrypt key payload₁ = .ok plain →
      transform.decrypt key payload₂ = .ok plain →
      payload₁.take transform.ivLength = payload₂.take transform.ivLength →
      payload₁ = payload₂) := by
  refine ⟨?_, ?_, ?_⟩
  · intro payload plain
    constructor
    · rintro ⟨hplain, hlimit⟩
      exact ⟨(decrypt_eq_ok_iff.mp hplain).1, _,
        encrypt_of_decrypt hsymmetric entropy hplain hlimit, payload_leadingIv transform payload⟩
    · rintro ⟨_, data, hdata, rfl⟩
      exact ⟨decrypt_of_encrypt hsymmetric hdata,
        ((encryptWith_eq_ok_iff hsymmetric).mp (encrypt_eq_ok_iff.mp hdata).2).2⟩
  · intro pinned plain data hdata
    exact decrypt_of_encrypt hsymmetric hdata
  · intro payload₁ payload₂ plain hplain₁ hplain₂ hiv
    exact payload_unique hsymmetric hplain₁ hplain₂ hiv

/-- Two bytes in one padded block behind their vector. -/
theorem decrypt_two_bytes :
    (aes .cbc .pkcs7).isSymmetric = true ∧
      (aes .cbc .pkcs7).decrypt (.ofSecret (List.replicate 16 7))
        (EncryptedData.mk (some (List.replicate 16 0))
          [114, 252, 108, 175, 76, 198, 45, 27, 199, 195, 213, 73, 29, 85, 207, 50]).payload =
        .ok [104, 105] := by
  have hcomputed : ((aes .cbc .pkcs7).encrypt (.ofSecret (List.replicate 16 7))
      ⟨fun _ => 0, fun _ => ⟨1, by decide⟩⟩ (some (List.replicate 16 0)) [104, 105]).toOption =
        some ⟨some (List.replicate 16 0),
          [114, 252, 108, 175, 76, 198, 45, 27, 199, 195, 213, 73, 29, 85, 207, 50]⟩ := by
    decide +kernel
  have hencrypted := Outcome.toOption_eq_some.mp hcomputed
  exact ⟨rfl, (decrypt_exactly_encrypted (aes .cbc .pkcs7) rfl _ _).2.1 _ _ _ hencrypted⟩

end CipherVault.Transform
