import CipherVault.Proofs.Key.Material
import CipherVault.Proofs.Rsa.Arithmetic
/-!
# Keys are written back as they were read

Secrets and public keys have one encoding each, so that what was read is what is written.  A private
key has many: all that a reader drops of one, the precomputed values, the version and the trailer,
is computed anew when the key is written.  Either way the first encoding that is written is read as
the same key, and is written once more from there.
-/

namespace CipherVault.Rsa.PrivateKey

theorem factor1_pos (key : PrivateKey) : 0 < key.factor1 :=
  Nat.zero_lt_of_lt key.valid.2.1

end CipherVault.Rsa.PrivateKey

namespace CipherVault.KeyMaterial

variable {kind : KeyKind} {bytes encoded : Bytes} {material : KeyMaterial}

theorem kind_of_decode (h : decode kind bytes = .ok material) : material.kind = kind := by
  cases kind with
  | secret =>
    obtain ⟨-, rfl⟩ := decode_secret_eq_ok_iff.mp h
    rfl
  | rsaPrivate =>
    obtain ⟨key, -, rfl⟩ := decode_rsaPrivate_eq_ok_iff.mp h
    rfl
  | rsaPublic =>
    obtain ⟨key, -, rfl⟩ := decode_rsaPublic_eq_ok_iff.mp h
    rfl

/-- Secrets and public keys have no encoding but the one that they are written with. -/
theorem encode_of_decode (hkind : kind ≠ .rsaPrivate) (h : decode kind bytes = .ok material) :
    material.encode = .ok bytes := by
  cases kind with
  | secret =>
    obtain ⟨-, rfl⟩ := decode_secret_eq_ok_iff.mp h
    rfl
  | rsaPrivate => exact absurd rfl hkind
  | rsaPublic =>
    obtain ⟨key, hkey, rfl⟩ := decode_rsaPublic_eq_ok_iff.mp h
    exact encode_rsaPublic_eq_ok_iff.mpr (Rsa.PublicKey.decode?_eq_some_iff.mp hkey).1

/-- Whatever a reader accepted, it accepts when written again, and as the same key. -/
theorem decode_encode_of_decode (h : decode kind bytes = .ok material)
    (hencode : material.encode = .ok encoded) : decode kind encoded = .ok material := by
  by_cases hkind : kind = .rsaPrivate
  · subst hkind
    obtain ⟨key, -, rfl⟩ := decode_rsaPrivate_eq_ok_iff.mp h
    have hkey := Rsa.PrivateKey.decode?_of_encode? (encode_rsaPrivate_eq_ok_iff.mp hencode)
    exact decode_rsaPrivate_eq_ok_iff.mpr ⟨key, hkey, rfl⟩
  -- The other kinds are written as the very bytes that were accepted.
  · have hsame := encode_of_decode hkind h
    obtain rfl := Except.ok.inj (hencode.symm.trans hsame)
    exact h

/-- Writing a key that was read changes neither its kind nor the key, and writing it twice changes
nothing at all.  Secrets and public keys are written as the bytes that they were read from.  Of a
private key the numbers are kept, and everything beside them is computed from the numbers. -/
theorem survives_reencoding (h : decode kind bytes = .ok material) :
    material.kind = kind ∧
      (∀ encoded, material.encode = .ok encoded →
        ∃ found, decode kind encoded = .ok found ∧ found = material ∧
          found.encode = .ok encoded) ∧
      (kind ≠ .rsaPrivate → material.encode = .ok bytes) ∧
      ∀ key, material = .rsaPrivate key →
        (∃ surplus : Rsa.PrivateKey.Surplus,
          Rsa.isTrailer surplus.version surplus.trailer = true ∧
            key.encodeWith? surplus = some bytes) ∧
        ∀ encoded, material.encode = .ok encoded →
          ∃ coefficient < key.factor1, coefficient * key.factor2 ≡ 1 [MOD key.factor1] ∧
            key.encodeWith? (key.surplus coefficient) = some encoded := by
  refine ⟨kind_of_decode h, fun encoded hencode => ?_, fun hkind => encode_of_decode hkind h,
    fun key hkey => ⟨?_, fun encoded hencode => ?_⟩⟩
  · exact ⟨material, decode_encode_of_decode h hencode, rfl, hencode⟩
  · subst hkey
    obtain rfl := kind_of_decode h
    obtain ⟨found, hfound, hsame⟩ := decode_rsaPrivate_eq_ok_iff.mp h
    cases hsame
    exact Rsa.PrivateKey.decode?_eq_some_iff.mp hfound
  · subst hkey
    obtain ⟨coefficient, hcoefficient, hwritten⟩ :=
      Rsa.PrivateKey.encode?_eq_some_iff.mp (encode_rsaPrivate_eq_ok_iff.mp hencode)
    exact ⟨coefficient, Rsa.lt_of_inverse? key.factor1_pos hcoefficient,
      Rsa.modEq_of_inverse? key.factor1_pos hcoefficient, hwritten⟩

/-- Not every encoding of a private key is the one that it is written with: here, of the key with
the factors three and five, one with nines for all three precomputed values and an empty set of
attributes. -/
theorem survives_reencoding_fifteen :
    ∃ (key : Rsa.PrivateKey) (foreign own : Bytes), own ≠ foreign ∧
      decode .rsaPrivate foreign = .ok (.rsaPrivate key) ∧
        (rsaPrivate key).encode = .ok own ∧ decode .rsaPrivate own = .ok (.rsaPrivate key) := by
  let foreign : Bytes := [0x30, 0x33, 0x02, 0x01, 0x00, 0x30, 0x0D, 0x06, 0x09, 0x2A, 0x86, 0x48,
    0x86, 0xF7, 0x0D, 0x01, 0x01, 0x01, 0x05, 0x00, 0x04, 0x1D, 0x30, 0x1B, 0x02, 0x01, 0x00, 0x02,
    0x01, 0x0F, 0x02, 0x01, 0x03, 0x02, 0x01, 0x03, 0x02, 0x01, 0x03, 0x02, 0x01, 0x05, 0x02, 0x01,
    0x09, 0x02, 0x01, 0x09, 0x02, 0x01, 0x09, 0xA0, 0x00]
  let own : Bytes := [0x30, 0x31, 0x02, 0x01, 0x00, 0x30, 0x0D, 0x06, 0x09, 0x2A, 0x86, 0x48, 0x86,
    0xF7, 0x0D, 0x01, 0x01, 0x01, 0x05, 0x00, 0x04, 0x1D, 0x30, 0x1B, 0x02, 0x01, 0x00, 0x02, 0x01,
    0x0F, 0x02, 0x01, 0x03, 0x02, 0x01, 0x03, 0x02, 0x01, 0x03, 0x02, 0x01, 0x05, 0x02, 0x01, 0x01,
    0x02, 0x01, 0x03, 0x02, 0x01, 0x02]
  have hboth : (Rsa.PrivateKey.decode? foreign).bind Rsa.PrivateKey.encode? = some own := by
    decide +kernel
  obtain ⟨key, hkey, hown⟩ := Option.bind_eq_some_iff.mp hboth
  have hread : decode .rsaPrivate foreign = .ok (.rsaPrivate key) :=
    decode_rsaPrivate_eq_ok_iff.mpr ⟨key, hkey, rfl⟩
  have hwritten : (rsaPrivate key).encode = .ok own := encode_rsaPrivate_eq_ok_iff.mpr hown
  obtain ⟨-, hagain, -⟩ := survives_reencoding hread
  obtain ⟨found, hfound, rfl, -⟩ := hagain own hwritten
  exact ⟨key, foreign, own, by decide, hread, hwritten, hfound⟩

end CipherVault.KeyMaterial
