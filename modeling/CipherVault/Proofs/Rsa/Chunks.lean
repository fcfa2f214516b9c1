import CipherVault.Proofs.Outcome
import CipherVault.Proofs.Pieces
import CipherVault.Proofs.Rsa.Recovery
import CipherVault.Transform.Cipher
import Mathlib.NumberTheory.LucasLehmer
/-!
# RSA encryption has no limit of size

A text of any length is cut into chunks that leave room for the padding, each of which becomes one
block; cutting the ciphertext by the size of the modulus gives these blocks back, so nothing is lost
where chunks meet.
-/

namespace CipherVault

namespace Rsa

/-- The chunks that a text is encrypted in; an empty text is one empty chunk. -/
def chunksOf (size : Nat) (data : Bytes) : List Bytes :=
  if data.isEmpty then [[]] else data.pieces size

variable {size : Nat}

theorem flatten_chunksOf (hsize : 0 < size) (data : Bytes) :
    (chunksOf size data).flatten = data := by
  rw [chunksOf]
  split
  · next hempty => exact (List.isEmpty_iff.mp hempty).symm
  · exact Bytes.flatten_pieces hsize data

theorem length_le_of_mem_chunksOf (hsize : 0 < size) {data chunk : Bytes}
    (h : chunk ∈ chunksOf size data) : chunk.length ≤ size := by
  rw [chunksOf] at h
  split at h
  · rw [List.mem_singleton.mp h]
    exact Nat.zero_le size
  · exact Bytes.length_le_of_mem_pieces hsize h

/-- One chunk at least, else the quotient of the lengths, rounded up. -/
theorem length_chunksOf (hsize : 0 < size) (data : Bytes) :
    (chunksOf size data).length = max 1 ((data.length + size - 1) / size) := by
  rw [chunksOf]
  split
  · next hempty =>
    have hnone : (data.length + size - 1) / size = 0 := by
      rw [List.isEmpty_iff.mp hempty]
      exact Nat.div_eq_of_lt (by simpa using hsize)
    rw [hnone]
    rfl
  · next hdata =>
    have hpos : 0 < data.length := List.length_pos_iff.mpr (mt List.isEmpty_iff.mpr hdata)
    have hone : 1 ≤ (data.length + size - 1) / size :=
      (Nat.one_le_div_iff hsize).mpr (by omega)
    rw [Bytes.length_pieces hsize, max_eq_right hone]

theorem chunksOf_ne_nil (hsize : 0 < size) (data : Bytes) : chunksOf size data ≠ [] := by
  apply List.ne_nil_of_length_pos
  rw [length_chunksOf hsize]
  exact Nat.lt_of_lt_of_le Nat.one_pos (Nat.le_max_left ..)

namespace PublicKey

variable {key : PublicKey} {padding : Padding}

/-- The checks before a block is encrypted are there to establish validity. -/
theorem fault?_eq_none_iff : key.fault? = none ↔ key.IsValid := by
  have hwide : maxExponent < Nat.pow 2 64 := by decide
  simp only [fault?, IsValid, ite_eq_iff, reduceCtorEq, and_false, and_true, false_or]
  omega

theorem encrypt_of_small (hsize : key.size ≤ padding.overhead) (entropy : Entropy) (data : Bytes) :
    key.encrypt padding entropy data = .error .keyTooSmall :=
  if_pos (Nat.sub_eq_zero_of_le hsize)

theorem encrypt_of_fault (hsize : padding.overhead < key.size) {fault : KeyFault}
    (hfault : key.fault? = some fault) (entropy : Entropy) (data : Bytes) :
    key.encrypt padding entropy data = .error (.invalidKey fault) := by
  rw [encrypt, if_neg (Nat.sub_ne_zero_of_lt hsize), hfault]

theorem encrypt_of_isValid (hsize : padding.overhead < key.size) (hvalid : key.IsValid)
    (entropy : Entropy) (data : Bytes) :
    key.encrypt padding entropy data =
      .ok (key.encryptChunks padding entropy (chunksOf (key.size - padding.overhead) data)) := by
  rw [encrypt, if_neg (Nat.sub_ne_zero_of_lt hsize), fault?_eq_none_iff.mpr hvalid]
  rfl

/-- What is encrypted are the chunks, and they have room. -/
theorem encrypt_eq_ok {entropy : Entropy} {data blocks : Bytes}
    (h : key.encrypt padding entropy data = .ok blocks) :
    padding.overhead < key.size ∧
      blocks = key.encryptChunks padding entropy
        (chunksOf (key.size - padding.overhead) data) := by
  rw [encrypt] at h
  split at h
  · cases h
  · next hroom =>
    split at h
    · cases h
    · exact ⟨Nat.lt_of_sub_ne_zero hroom, (Except.ok.inj h).symm⟩

theorem length_encryptChunks (entropy : Entropy) (chunks : List Bytes) :
    (key.encryptChunks padding entropy chunks).length = key.size * chunks.length := by
  induction chunks generalizing entropy with
  | nil => rfl
  | cons chunk rest ih =>
    rw [encryptChunks, List.length_append, length_encryptBlock, ih, List.length_cons, Nat.mul_succ,
      Nat.add_comm]

end PublicKey

namespace PrivateKey

variable {key : PrivateKey} {padding : Padding}

/-- Cut by the size of the modulus, blocks decrypt to the chunks that they were made of. -/
theorem decryptBlocks?_encryptChunks (hkey : key.RecoversChunks padding) {chunks : List Bytes}
    (hchunks : ∀ chunk ∈ chunks, chunk.length + padding.overhead ≤ key.size) (entropy : Entropy) :
    key.decryptBlocks? padding
        ((key.publicKey.encryptChunks padding entropy chunks).pieces key.size) =
      some chunks.flatten := by
  -- Each block draws bytes of its own, so the entropy moves on along the chunks.
  induction chunks generalizing entropy with
  | nil => rfl
  | cons chunk rest ih =>
    have hblock := hkey entropy chunk (hchunks chunk List.mem_cons_self)
    have hrest := ih (fun other h => hchunks other (List.mem_cons_of_mem chunk h))
      (entropy.skip key.publicKey.size)
    have hlength : (key.publicKey.encryptBlock padding entropy chunk).length = key.size :=
      PublicKey.length_encryptBlock padding entropy chunk
    rw [PublicKey.encryptChunks, Bytes.pieces_append key.size_pos hlength, decryptBlocks?, hblock]
    change (key.decryptBlocks? padding _).bind (fun chunks => some (chunk ++ chunks)) = _
    rw [hrest]
    rfl

theorem decrypt_encryptChunks (hkey : key.RecoversChunks padding) {chunks : List Bytes}
    (hne : chunks ≠ []) (hchunks : ∀ chunk ∈ chunks, chunk.length + padding.overhead ≤ key.size)
    (entropy : Entropy) :
    key.decrypt padding (key.publicKey.encryptChunks padding entropy chunks) =
      .ok chunks.flatten := by
  have hlength : (key.publicKey.encryptChunks padding entropy chunks).length =
      key.size * chunks.length := PublicKey.length_encryptChunks entropy chunks
  have hpos : 0 < (key.publicKey.encryptChunks padding entropy chunks).length := by
    rw [hlength]
    exact Nat.mul_pos key.size_pos (List.length_pos_iff.mpr hne)
  have hblocks : ¬((key.publicKey.encryptChunks padding entropy chunks).isEmpty ∨
      (key.publicKey.encryptChunks padding entropy chunks).length % key.size ≠ 0) := by
    rintro (hempty | hrest)
    · exact hpos.ne' (List.isEmpty_iff_length_eq_zero.mp hempty)
    · exact hrest (by rw [hlength, Nat.mul_mod_right])
  rw [decrypt, if_neg hblocks, decryptBlocks?_encryptChunks hkey hchunks]

end PrivateKey

end Rsa

namespace Transform

open Rsa

theorem encrypt_rsa (padding : Padding) {key : KeyMaterial} {publicKey : PublicKey}
    (hkey : key.publicKey? = some publicKey) (entropy : Entropy) (plain : Bytes) :
    (rsa padding).encrypt key entropy none plain =
      (publicKey.encrypt padding entropy plain).mapError ofRsaError >>= fun ciphertext =>
        .ok ⟨none, ciphertext⟩ := by
  change (rsa padding).encryptWith key entropy [] plain >>= _ = _
  rw [encryptWith, hkey]

theorem decrypt_rsa (padding : Padding) (key : PrivateKey) (ciphertext : Bytes) :
    (rsa padding).decrypt (.rsaPrivate key) ciphertext =
      (key.decrypt padding ciphertext).mapError ofRsaError :=
  if_neg (Nat.not_lt_zero _)

/-- With an RSA key whose modulus exceeds the overhead of the padding, every text encrypts, without
an initialization vector and to one block for each chunk of it, if the key is valid; the others are
refused for the check that they fail.  No other RSA key encrypts any text.  A private key that
recovers chunks from single blocks recovers the text. -/
theorem rsa_encrypts_any_length (padding : Padding) (key : KeyMaterial) (publicKey : PublicKey)
    (hkey : key.publicKey? = some publicKey) (entropy : Entropy) (plain : Bytes) :
    ((∃ fault, (rsa padding).encrypt key entropy none plain = .error (.illegal fault)) ↔
      publicKey.size ≤ padding.overhead) ∧
    (padding.overhead < publicKey.size →
      (∀ fault, publicKey.fault? = some fault →
        (rsa padding).encrypt key entropy none plain =
          .error (.failure (.rsaEncryption fault))) ∧
      (publicKey.IsValid →
        ∃ ciphertext, (rsa padding).encrypt key entropy none plain = .ok ⟨none, ciphertext⟩ ∧
          ciphertext.length = publicKey.size *
            max 1 ((plain.length + (publicKey.size - padding.overhead) - 1) /
              (publicKey.size - padding.overhead)) ∧
          ∀ privateKey : PrivateKey, privateKey.publicKey = publicKey →
            privateKey.RecoversChunks padding →
            (rsa padding).decrypt (.rsaPrivate privateKey) ciphertext = .ok plain)) := by
  have hencrypt := encrypt_rsa padding hkey entropy plain
  by_cases hsize : publicKey.size ≤ padding.overhead
  · rw [PublicKey.encrypt_of_small hsize] at hencrypt
    exact ⟨iff_of_true ⟨_, hencrypt⟩ hsize, fun h => absurd hsize (Nat.not_le.mpr h)⟩
  have hroom : padding.overhead < publicKey.size := Nat.not_le.mp hsize
  have hfaulty : ∀ fault, publicKey.fault? = some fault →
      (rsa padding).encrypt key entropy none plain = .error (.failure (.rsaEncryption fault)) := by
    intro fault hfault
    rw [hencrypt, PublicKey.encrypt_of_fault hroom hfault]
    rfl
  have hvalid : publicKey.IsValid → (rsa padding).encrypt key entropy none plain =
      .ok ⟨none, publicKey.encryptChunks padding entropy
        (chunksOf (publicKey.size - padding.overhead) plain)⟩ := by
    intro hvalid
    rw [hencrypt, PublicKey.encrypt_of_isValid hroom hvalid]
    rfl
  refine ⟨iff_of_false ?_ hsize, fun _ => ⟨hfaulty, fun h => ⟨_, hvalid h, ?_, ?_⟩⟩⟩
  · rintro ⟨fault, hillegal⟩
    cases hfault : publicKey.fault? with
    | some cause => cases hillegal.symm.trans (hfaulty cause hfault)
    | none => cases hillegal.symm.trans (hvalid (PublicKey.fault?_eq_none_iff.mp hfault))
  · have hchunk : 0 < publicKey.size - padding.overhead := Nat.sub_pos_of_lt hroom
    rw [PublicKey.length_encryptChunks, length_chunksOf hchunk]
  · rintro privateKey rfl hrecovers
    have hchunk : 0 < privateKey.publicKey.size - padding.overhead := Nat.sub_pos_of_lt hroom
    have hfits : ∀ chunk ∈ chunksOf (privateKey.publicKey.size - padding.overhead) plain,
        chunk.length + padding.overhead ≤ privateKey.size := by
      intro chunk hmem
      have hlength := length_le_of_mem_chunksOf hchunk hmem
      change chunk.length + padding.overhead ≤ privateKey.publicKey.size
      omega
    rw [decrypt_rsa, PrivateKey.decrypt_encryptChunks hrecovers (chunksOf_ne_nil hchunk plain)
      hfits, flatten_chunksOf hchunk]
    rfl

/-- A key of twelve bytes, one more than the overhead of the shorter padding; its factors are two
Mersenne numbers. -/
def twelveByteKey : PrivateKey where
  publicKey := ⟨4951760154835678088235319297, 65537⟩
  exponent := 1690970304802162823
  factor1 := 2147483647
  factor2 := 2305843009213693951
  valid := by decide

theorem primeFactors_twelveByteKey : twelveByteKey.PrimeFactors where
  prime1 := lucas_lehmer_sufficiency 31 (by norm_num) (by norm_num)
  prime2 := lucas_lehmer_sufficiency 61 (by norm_num) (by norm_num)
  distinct := by decide

/-- Two bytes in chunks of one byte each.  The modulus less one, which is even, has the same length
and makes a key that is refused. -/
theorem rsa_encrypts_two_bytes :
    (∃ ciphertext, (rsa .pkcs1).encrypt (.rsaPrivate twelveByteKey)
        ⟨fun _ => 0, fun _ => ⟨1, by decide⟩⟩ none [104, 105] = .ok ⟨none, ciphertext⟩ ∧
      ciphertext.length = 24 ∧
      (rsa .pkcs1).decrypt (.rsaPrivate twelveByteKey) ciphertext = .ok [104, 105]) ∧
    (rsa .pkcs1).encrypt (.rsaPublic ⟨4951760154835678088235319296, 65537⟩)
        ⟨fun _ => 0, fun _ => ⟨1, by decide⟩⟩ none [104, 105] =
      .error (.failure (.rsaEncryption .invalidModulus)) := by
  have hsize : twelveByteKey.publicKey.size = 12 := by decide +kernel
  obtain ⟨-, hencrypts⟩ := rsa_encrypts_any_length .pkcs1 (.rsaPrivate twelveByteKey)
    twelveByteKey.publicKey rfl ⟨fun _ => 0, fun _ => ⟨1, by decide⟩⟩ [104, 105]
  obtain ⟨-, haccepted⟩ := hencrypts (by rw [hsize]; decide)
  obtain ⟨-, hrefused⟩ := rsa_encrypts_any_length .pkcs1
    (.rsaPublic ⟨4951760154835678088235319296, 65537⟩) ⟨4951760154835678088235319296, 65537⟩ rfl
    ⟨fun _ => 0, fun _ => ⟨1, by decide⟩⟩ [104, 105]
  obtain ⟨hfaulty, -⟩ := hrefused (by decide +kernel)
  obtain ⟨ciphertext, hciphertext, hlength, hdecrypts⟩ := haccepted twelveByteKey.valid.1
  refine ⟨⟨ciphertext, hciphertext, ?_, ?_⟩, hfaulty _ (by decide)⟩
  · rw [hlength, hsize]
    rfl
  · exact hdecrypts twelveByteKey rfl (PrivateKey.recoversChunks primeFactors_twelveByteKey .pkcs1)

end Transform

end CipherVault
