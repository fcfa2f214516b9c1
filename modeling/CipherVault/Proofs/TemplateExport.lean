import CipherVault.Proofs.Base64Form
import CipherVault.Proofs.Rsa.Chunks
import CipherVault.Proofs.TransformName
/-!
# Which results can be exported

A template has no place for an empty payload.  Every transform but one puts a vector, padding, a tag
or a whole block into each payload; codebook mode without padding adds nothing, so that the
encryption of no bytes is no bytes.  Of the results under an alias that can stand in a template,
these alone are not exported.
-/

namespace CipherVault

theorem Base64.isBare_encode_iff {bs : Bytes} : Template.IsBare (encode bs) ↔ bs ≠ [] := by
  constructor
  · rintro hbare rfl
    exact hbare.1 rfl
  · intro hne
    refine ⟨encode_ne_empty hne, ?_⟩
    rw [encode, String.toList_ofList]
    exact forall_mem_encodeChars (by decide) (by decide) bs

/-- Of an RSA encryption there is one block at least. -/
theorem Rsa.PublicKey.ne_nil_of_encrypt {key : PublicKey} {padding : Padding} {entropy : Entropy}
    {plain data : Bytes} (h : key.encrypt padding entropy plain = .ok data) : data ≠ [] := by
  obtain ⟨hroom, rfl⟩ := encrypt_eq_ok h
  have hchunks := chunksOf_ne_nil (Nat.sub_pos_of_lt hroom) plain
  apply List.ne_nil_of_length_pos
  rw [length_encryptChunks]
  exact Nat.mul_pos (Nat.zero_lt_of_lt hroom) (List.length_pos_iff.mpr hchunks)

namespace Transform

variable {transform : Transform} {key : KeyMaterial} {entropy : Entropy}

/-- A vector of no bytes with a ciphertext of none, as only codebook mode without padding has them
for no data. -/
theorem encryptWith_eq_nil_iff {iv plain data : Bytes} (hiv : iv.length = transform.ivLength)
    (h : transform.encryptWith key entropy iv plain = .ok data) :
    iv ++ data = [] ↔ transform = aes .ecb .none ∧ plain = [] := by
  have hnil : iv ++ data = [] ↔ transform.ivLength + data.length = 0 := by
    rw [← List.length_eq_zero_iff, List.length_append, hiv]
  rw [hnil]
  cases transform with
  | aes mode padding =>
    have hlength := length_encryptWith rfl h
    cases mode with
    | ecb =>
      cases padding with
      | pkcs7 =>
        have hpadded : 16 * (plain.length / 16 + 1) = data.length := Option.some.inj hlength
        simp [ivLength, ← hpadded]
      | none =>
        have hsame : plain.length = data.length := Option.some.inj hlength
        simp [ivLength, ← hsame]
    | cbc => simp [ivLength]
  | aesGcm => simp [ivLength]
  | chaCha20Poly1305 => simp [ivLength]
  | rsa padding =>
    rw [encryptWith] at h
    split at h
    · cases h
    · have hne := Rsa.PublicKey.ne_nil_of_encrypt (Outcome.mapError_eq_ok.mp h)
      simp [ivLength, hne]

theorem payload_eq_nil_iff {pinned : Option Bytes} {plain : Bytes} {data : EncryptedData}
    (h : transform.encrypt key entropy pinned plain = .ok data) :
    data.payload = [] ↔ transform = aes .ecb .none ∧ plain = [] := by
  obtain ⟨hiv, hciphertext⟩ := encrypt_eq_ok_iff.mp h
  exact encryptWith_eq_nil_iff (prepareIv_eq_ok hiv) hciphertext

end Transform

namespace EncryptResult

variable {result : EncryptResult} {keyAlias : String}

/-- With a tag, a name and an alias that can stand in a template, a result is exported if it has
bytes. -/
theorem template_of_bytes (hkeyAlias : result.keyAlias = some keyAlias)
    (htag : Template.IsBare result.tag) (halgorithm : Template.IsBare result.algorithm)
    (hbare : Template.IsBare keyAlias) (hbytes : result.bytes ≠ []) :
    result.template =
      .ok (Template.written result.tag ⟨result.algorithm, keyAlias, result.base64⟩) := by
  rw [template, hkeyAlias]
  exact Template.render_eq_ok_iff_written.mpr
    ⟨rfl, htag, halgorithm, hbare, Base64.isBare_encode_iff.mpr hbytes⟩

/-- Without bytes the payload alone is at fault. -/
theorem template_of_no_bytes (hkeyAlias : result.keyAlias = some keyAlias)
    (htag : Template.IsBare result.tag) (halgorithm : Template.IsBare result.algorithm)
    (hbare : Template.IsBare keyAlias) (hbytes : result.bytes = []) :
    result.template = .error (.illegal (.templateSegment .payload "")) := by
  have hpayload : result.base64 = "" := by
    rw [base64, hbytes]
    rfl
  cases htemplate : result.template with
  | ok text =>
    rw [template, hkeyAlias] at htemplate
    have hsegments := (Template.render_eq_ok_iff_written.mp htemplate).2
    exact absurd hpayload hsegments.payload.1
  | error e =>
    rw [template, hkeyAlias] at htemplate
    obtain ⟨segment, rfl, hfault⟩ := Template.exists_of_render_eq_error htemplate
    cases segment with
    | tag => exact absurd htag hfault
    | algorithm => exact absurd halgorithm hfault
    | keyAlias => exact absurd hbare hfault
    | payload => rw [Template.contentOf, hpayload]

end EncryptResult

namespace TemplateProvider

variable {provider : TemplateProvider} {entropy : Entropy} {request : EncryptionRequest}
  {result : EncryptResult} {keyAlias : String}

/-- A key that was looked for under an alias is reported with that alias. -/
theorem keyAlias_of_encrypt_stored (hkey : request.parameters.key = none)
    (halias : (request.parameters.keyAlias <|> provider.defaults.keyAlias) = some keyAlias)
    (hresult : (provider.encrypt entropy request).outcome = .ok result) :
    result.keyAlias = some keyAlias := by
  obtain ⟨resolved, _, _, hresolved, _, _, rfl⟩ := encrypt_eq_ok_iff.mp hresult
  have hchosen := (Resolved.resolve_eq_ok_iff.mp hresolved).2
  rw [Resolved.chooseKey_eq, hkey] at hchosen
  have hstored : Resolved.chooseAlias request.parameters none provider.defaults = some keyAlias :=
    halias
  simp only [Resolved.storedKey, hstored] at hchosen
  obtain ⟨found, _, hfound⟩ := Resolved.lookUp_eq_ok_iff.mp hchosen
  simp only [hfound, ResolvedKey.keyAlias?]

/-- Under an alias that can stand in a template, and under whatever name of a transform, every
encryption is exported, unless no bytes were encrypted in codebook mode without padding.  Then the
export is refused for the payload. -/
theorem exports_unless_no_bytes (hkey : request.parameters.key = none)
    (halias : (request.parameters.keyAlias <|> provider.defaults.keyAlias) = some keyAlias)
    (hbare : Template.IsBare keyAlias)
    (hresult : (provider.encrypt entropy request).outcome = .ok result) :
    ∃ transform, Transform.ofName? result.algorithm = some transform ∧
      (transform = .aes .ecb .none ∧ request.plaintext = [] →
        result.template = .error (.illegal (.templateSegment .payload ""))) ∧
      (¬(transform = .aes .ecb .none ∧ request.plaintext = []) →
        ∃ text, result.template = .ok text ∧
          Template.parse? tag text = some ⟨result.algorithm, keyAlias, result.base64⟩) := by
  have hkeyAlias := keyAlias_of_encrypt_stored hkey halias hresult
  obtain ⟨resolved, transform, data, _, hparsed, hdata, rfl⟩ := encrypt_eq_ok_iff.mp hresult
  have hname : Transform.ofName? resolved.algorithm = some transform := by
    rw [Transform.parse] at hparsed
    split at hparsed
    · next hname =>
      cases hparsed
      exact hname
    · cases hparsed
  have htag : Template.IsBare tag := by decide
  have halgorithm := Transform.isBare_of_ofName? hname
  have hbytes := Transform.payload_eq_nil_iff hdata
  refine ⟨transform, hname, ?_, ?_⟩
  · intro hempty
    exact EncryptResult.template_of_no_bytes hkeyAlias htag halgorithm hbare (hbytes.mpr hempty)
  · intro hsome
    have htext := EncryptResult.template_of_bytes hkeyAlias htag halgorithm hbare
      (mt hbytes.mp hsome)
    refine ⟨_, htext, ?_⟩
    obtain ⟨found, hfound, hparse⟩ := EncryptResult.template_eq_ok_iff.mp htext
    obtain rfl := Option.some.inj (hkeyAlias.symm.trans hfound)
    exact hparse

/-- No bytes under a name between blanks in lower-case letters: the padding makes one block of them,
which is exported with the name as it is spelled. -/
theorem exports_padded_no_bytes :
    ∃ result text,
      ((Service.sampleProvider "main" ⟨some " aes/cbc/pkcs5padding\n", some "k", none⟩).encrypt
        ⟨fun _ => 0, fun _ => ⟨1, by decide⟩⟩ ⟨[], { iv := some (List.replicate 16 0) }⟩).outcome =
          .ok result ∧
      result.template = .ok text ∧
      Template.parse? tag text =
        some ⟨" aes/cbc/pkcs5padding\n", "k", "AAAAAAAAAAAAAAAAAAAAAG3Y0amWiTBQDJW8pD0ITiM="⟩ := by
  have hresult :
      ((Service.sampleProvider "main" ⟨some " aes/cbc/pkcs5padding\n", some "k", none⟩).encrypt
        ⟨fun _ => 0, fun _ => ⟨1, by decide⟩⟩
        ⟨[], { iv := some (List.replicate 16 0) }⟩).outcome.toOption =
          some ⟨⟨some (List.replicate 16 0),
            [109, 216, 209, 169, 150, 137, 48, 80, 12, 149, 188, 164, 61, 8, 78, 35]⟩,
            " aes/cbc/pkcs5padding\n", some "k", "v2c"⟩ := by
    decide +kernel
  have hname : Transform.ofName? " aes/cbc/pkcs5padding\n" = some (.aes .cbc .pkcs7) := by
    decide +kernel
  obtain ⟨transform, htransform, -, hexports⟩ :=
    exports_unless_no_bytes rfl rfl (by decide) (Outcome.toOption_eq_some.mp hresult)
  obtain rfl := Option.some.inj (hname.symm.trans htransform)
  obtain ⟨text, htext, hparse⟩ := hexports (by decide)
  exact ⟨_, text, Outcome.toOption_eq_some.mp hresult, htext, hparse⟩

/-- No bytes in codebook mode without padding: the encryption succeeds under the alias `k`, and
there is no template of its result. -/
theorem exports_not_unpadded_no_bytes :
    Template.IsBare "k" ∧ Transform.ofName? "AES/ECB/NoPadding" = some (.aes .ecb .none) ∧
      ∃ result,
        ((Service.sampleProvider "main" ⟨some "AES/ECB/NoPadding", some "k", none⟩).encrypt
          ⟨fun _ => 0, fun _ => ⟨1, by decide⟩⟩ ⟨[], {}⟩).outcome = .ok result ∧
        result.keyAlias = some "k" ∧ ∀ text, result.template ≠ .ok text := by
  have hresult :
      ((Service.sampleProvider "main" ⟨some "AES/ECB/NoPadding", some "k", none⟩).encrypt
        ⟨fun _ => 0, fun _ => ⟨1, by decide⟩⟩ ⟨[], {}⟩).outcome.toOption =
          some ⟨⟨none, []⟩, "AES/ECB/NoPadding", some "k", "v2c"⟩ := by
    decide +kernel
  have hrefused : (EncryptResult.mk ⟨none, []⟩ "AES/ECB/NoPadding" (some "k") "v2c").template =
      .error (.illegal (.templateSegment .payload "")) :=
    EncryptResult.template_of_no_bytes rfl (by decide) (by decide) (by decide) rfl
  refine ⟨by decide, by decide, _, Outcome.toOption_eq_some.mp hresult, rfl, ?_⟩
  intro text htext
  cases hrefused.symm.trans htext

end TemplateProvider

end CipherVault
