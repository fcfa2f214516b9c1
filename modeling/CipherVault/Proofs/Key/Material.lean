import CipherVault.Key.Material
import CipherVault.Proofs.Rsa.Encoding
/-!
# Encodings of keys

Whatever key a reader accepts from the encoding of a key is that key.  A reader may refuse an
encoding all the same: that of an empty secret, for one.
-/

namespace CipherVault.KeyMaterial

/-! ## One kind at a time -/

variable {bs : Bytes} {material : KeyMaterial}

theorem decode_secret_eq_ok_iff :
    decode .secret bs = .ok material ↔ bs ≠ [] ∧ material = .ofSecret bs := by
  cases bs with
  | nil => simp [decode]
  | cons byte bs => simp [decode, eq_comm]

theorem decode_rsaPrivate_eq_ok_iff :
    decode .rsaPrivate bs = .ok material ↔
      ∃ key, Rsa.PrivateKey.decode? bs = some key ∧ material = .rsaPrivate key := by
  rw [decode]
  cases Rsa.PrivateKey.decode? bs with
  | none => simp
  | some key => simp [eq_comm]

theorem decode_rsaPublic_eq_ok_iff :
    decode .rsaPublic bs = .ok material ↔
      ∃ key, Rsa.PublicKey.decode? bs = some key ∧ material = .rsaPublic key := by
  rw [decode]
  cases Rsa.PublicKey.decode? bs with
  | none => simp
  | some key => simp [eq_comm]

theorem encode_rsaPrivate_eq_ok_iff {key : Rsa.PrivateKey} :
    (rsaPrivate key).encode = .ok bs ↔ key.encode? = some bs := by
  rw [encode]
  cases key.encode? with
  | none => simp
  | some bytes => simp

theorem encode_rsaPublic_eq_ok_iff {key : Rsa.PublicKey} :
    (rsaPublic key).encode = .ok bs ↔ key.encode? = some bs := by
  rw [encode]
  cases key.encode? with
  | none => simp
  | some bytes => simp

/-! ## All kinds -/

/-- What is read from an encoding is the key that was encoded. -/
theorem eq_of_decode_encode {material found : KeyMaterial} {bs : Bytes}
    (hencode : material.encode = .ok bs) (hdecode : decode material.kind bs = .ok found) :
    found = material := by
  cases material with
  | secret key =>
    cases hencode
    exact (decode_secret_eq_ok_iff.mp hdecode).2
  | rsaPrivate key =>
    obtain ⟨other, hother, rfl⟩ := decode_rsaPrivate_eq_ok_iff.mp hdecode
    rw [Rsa.PrivateKey.decode?_of_encode? (encode_rsaPrivate_eq_ok_iff.mp hencode)] at hother
    cases hother
    rfl
  | rsaPublic key =>
    obtain ⟨other, hother, rfl⟩ := decode_rsaPublic_eq_ok_iff.mp hdecode
    rw [Rsa.PublicKey.decode?_of_encode? (encode_rsaPublic_eq_ok_iff.mp hencode)] at hother
    split at hother
    · cases hother
      rfl
    · cases hother

end CipherVault.KeyMaterial
