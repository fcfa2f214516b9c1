import CipherVault.Aead.ChaChaPoly
/-!
# Authenticated ciphers open exactly what they seal

Both ciphers combine the data with a keystream of at least its length and put a tag of sixteen bytes
behind the result.  A text opens to given data exactly if the data seals to that text: the tag is
recomputed, so the text has no second form.
-/

namespace CipherVault

namespace Bytes

/-- Combining twice with bytes that reach far enough changes nothing. -/
theorem xor_xor {bs mask : Bytes} (h : bs.length ≤ mask.length) : xor (xor bs mask) mask = bs := by
  induction bs generalizing mask with
  | nil => rfl
  | cons b rest ih =>
    cases mask with
    | nil => simp at h
    | cons m mask =>
      have hlength : rest.length ≤ mask.length := by simpa using h
      have hrest := ih hlength
      simp only [xor, List.zipWith_cons_cons] at hrest ⊢
      rw [hrest, UInt8.xor_assoc, UInt8.xor_self, UInt8.xor_zero]

end Bytes

namespace Aead

/-- Sealing by a cipher that combines data by `crypt` and authenticates the result by `tag`. -/
def sealWith (crypt tag : Bytes → Bytes) (nonce data : Bytes) : Except AeadError Bytes :=
  if nonce.length = nonceLength then .ok (crypt data ++ tag (crypt data)) else .error .badNonce

/-- Opening by such a cipher. -/
def openWith (crypt tag : Bytes → Bytes) (nonce data : Bytes) : Except AeadError Bytes :=
  if nonce.length = nonceLength then
    if data.length < tagLength then .error .unauthenticated
    else if data.drop (data.length - tagLength) = tag (data.take (data.length - tagLength)) then
      .ok (crypt (data.take (data.length - tagLength)))
    else .error .unauthenticated
  else .error .badNonce

theorem openWith_eq_ok_iff {crypt tag : Bytes → Bytes} (hcrypt : ∀ bs, crypt (crypt bs) = bs)
    (htag : ∀ bs, (tag bs).length = tagLength) {nonce data plain : Bytes} :
    openWith crypt tag nonce data = .ok plain ↔ sealWith crypt tag nonce plain = .ok data := by
  constructor
  · intro h
    rw [openWith] at h
    split at h
    · next hnonce =>
      split at h
      · cases h
      split at h
      · next htagged =>
        cases h
        rw [sealWith, if_pos hnonce, hcrypt, ← htagged, List.take_append_drop]
      · cases h
    · cases h
  · intro h
    rw [sealWith] at h
    split at h
    · next hnonce =>
      cases h
      have hkept :
          (crypt plain ++ tag (crypt plain)).length - tagLength = (crypt plain).length := by
        rw [List.length_append, htag]
        omega
      have hlong : ¬(crypt plain ++ tag (crypt plain)).length < tagLength := by
        rw [List.length_append, htag]
        omega
      rw [openWith, if_pos hnonce, if_neg hlong, hkept, List.drop_left, List.take_left, if_pos rfl,
        hcrypt]
    · cases h

/-- Sealing keeps the length of the data and puts a tag behind it. -/
theorem length_of_sealWith {crypt tag : Bytes → Bytes}
    (hcrypt : ∀ bs, (crypt bs).length = bs.length) (htag : ∀ bs, (tag bs).length = tagLength)
    {nonce plain data : Bytes} (h : sealWith crypt tag nonce plain = .ok data) :
    data.length = plain.length + tagLength := by
  rw [sealWith] at h
  split at h
  · cases h
    rw [List.length_append, htag, hcrypt]
  · cases h

theorem sealWith_eq_ok {crypt tag : Bytes → Bytes} {nonce : Bytes}
    (hnonce : nonce.length = nonceLength) (data : Bytes) :
    sealWith crypt tag nonce data = .ok (crypt data ++ tag (crypt data)) :=
  if_pos hnonce

end Aead

namespace Gcm

@[simp]
theorem length_keystream (schedule : Aes.Schedule) (nonce : Bytes) (count : Nat)
    (counter : UInt32) : (keystream schedule nonce count counter).length = 16 * count := by
  induction count generalizing counter with
  | zero => rfl
  | succ count ih =>
    rw [keystream, List.length_append, ih, Aes.Block.length_toBytes]
    omega

@[simp]
theorem length_crypt (schedule : Aes.Schedule) (nonce data : Bytes) :
    (crypt schedule nonce data).length = data.length := by
  rw [crypt, Bytes.length_xor, length_keystream]
  omega

theorem crypt_crypt (schedule : Aes.Schedule) (nonce data : Bytes) :
    crypt schedule nonce (crypt schedule nonce data) = data := by
  rw [crypt, length_crypt, crypt]
  apply Bytes.xor_xor
  rw [length_keystream]
  omega

@[simp]
theorem length_tag (schedule : Aes.Schedule) (nonce ciphertext : Bytes) :
    (tag schedule nonce ciphertext).length = tagLength := by
  simp [tag, tagLength]

/-- A text opens to data exactly if the data seals to it. -/
theorem decrypt_eq_ok_iff {schedule : Aes.Schedule} {nonce plain data : Bytes} :
    decrypt schedule nonce data = .ok plain ↔ encrypt schedule nonce plain = .ok data :=
  Aead.openWith_eq_ok_iff (crypt_crypt schedule nonce) (length_tag schedule nonce)

theorem length_encrypt {schedule : Aes.Schedule} {nonce plain data : Bytes}
    (h : encrypt schedule nonce plain = .ok data) : data.length = plain.length + tagLength :=
  Aead.length_of_sealWith (length_crypt schedule nonce) (length_tag schedule nonce) h

end Gcm

namespace ChaCha20

@[simp]
theorem length_keystream (key nonce : Bytes) (count : Nat) (counter : UInt32) :
    (keystream key nonce count counter).length = 64 * count := by
  induction count generalizing counter with
  | zero => rfl
  | succ count ih =>
    rw [keystream, List.length_append, ih, length_block]
    omega

end ChaCha20

namespace ChaChaPoly

@[simp]
theorem length_crypt (key nonce data : Bytes) : (crypt key nonce data).length = data.length := by
  rw [crypt, Bytes.length_xor, ChaCha20.length_keystream]
  omega

theorem crypt_crypt (key nonce data : Bytes) :
    crypt key nonce (crypt key nonce data) = data := by
  rw [crypt, length_crypt, crypt]
  apply Bytes.xor_xor
  rw [ChaCha20.length_keystream]
  omega

@[simp]
theorem length_tag (key nonce ciphertext : Bytes) :
    (tag key nonce ciphertext).length = tagLength := by
  simp [tag, tagLength]

/-- A text opens to data exactly if the data seals to it. -/
theorem decrypt_eq_ok_iff {key nonce plain data : Bytes} :
    decrypt key nonce data = .ok plain ↔ encrypt key nonce plain = .ok data :=
  Aead.openWith_eq_ok_iff (crypt_crypt key nonce) (length_tag key nonce)

theorem length_encrypt {key nonce plain data : Bytes} (h : encrypt key nonce plain = .ok data) :
    data.length = plain.length + tagLength :=
  Aead.length_of_sealWith (length_crypt key nonce) (length_tag key nonce) h

end ChaChaPoly

end CipherVault
