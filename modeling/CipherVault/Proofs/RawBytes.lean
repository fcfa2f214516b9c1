import CipherVault.Proofs.CiphertextLength
import CipherVault.Proofs.PayloadLength
import CipherVault.Proofs.Provider
import CipherVault.Service
/-!
# Raw bytes that spell a template

A decryption takes bytes that spell a template for the template and decrypts its payload, also where
the bytes were meant as raw ones.  Such a payload is too short to hold the same plaintext, so raw
bytes lead back to their plaintext exactly if they spell no template.
-/

namespace CipherVault

namespace TemplateProvider

variable {provider : TemplateProvider} {transform : Transform} {algorithm : String}
  {key : KeyMaterial} {ciphertext plain : Bytes}

/-- Under an explicit algorithm and key, raw bytes are decrypted to their plaintext exactly if they
spell no template. -/
theorem decrypt_explicit_iff (hsymmetric : transform.isSymmetric = true)
    (htransform : Transform.parse algorithm = .ok transform)
    (hplain : transform.decrypt key ciphertext = .ok plain) :
    (provider.decrypt
        ⟨ciphertext, { algorithm := some algorithm, key := some key }⟩).outcome = .ok ⟨plain⟩ ↔
      template? ciphertext = none := by
  have hresolve : ∀ embedded, provider.resolve
      { algorithm := some algorithm, key := some key } embedded =
        .ok ⟨algorithm, ⟨key, .explicit⟩⟩ :=
    Resolved.resolve_explicit _ _ algorithm key none
  rw [decrypt_eq_ok_iff]
  constructor
  · intro h
    obtain ⟨resolved, parsed, bytes, found, hresolved, hparsed, hbytes, hfound, hresult⟩ := h
    obtain rfl := Except.ok.inj ((hresolve _).symm.trans hresolved)
    obtain rfl : transform = parsed := Except.ok.inj (htransform.symm.trans hparsed)
    obtain rfl : plain = found := congrArg DecryptResult.bytes hresult
    cases htemplate : template? ciphertext with
    | none => rfl
    | some template =>
      -- the payload and all of the bytes would have one plaintext, but differ in length
      rw [htemplate, payload, Outcome.mapError_eq_ok] at hbytes
      have hshorter := length_payload_lt htemplate hbytes
      have hequal := Transform.length_eq_of_decrypt hsymmetric hfound hplain
      omega
  · intro hnone
    rw [hnone]
    exact ⟨_, transform, ciphertext, plain, hresolve none, htransform, rfl, hplain, rfl⟩

end TemplateProvider

namespace Service

variable {service : Service} {provider : TemplateProvider} {algorithm : String}
  {transform : Transform} {key : KeyMaterial} {entropy : Entropy} {iv : Option Bytes}
  {plain : Bytes} {result : EncryptResult}

/-- Requests that name no provider go to the default one. -/
theorem outcome_encryptBytes (service : Service) (algorithm : Option String)
    (key : Option KeyMaterial) (keyAlias : Option String) (iv : Option Bytes) (entropy : Entropy)
    (data : Bytes) :
    (service.encryptBytes { algorithm, key, keyAlias, iv } entropy data).outcome =
      (service.default.encrypt entropy ⟨data, { algorithm, key, keyAlias, iv }⟩).outcome := by
  simp [encryptBytes, select]

theorem outcome_decryptBytes (service : Service) (algorithm : Option String)
    (key : Option KeyMaterial) (keyAlias : Option String) (iv : Option Bytes) (data : Bytes) :
    (service.decryptBytes { algorithm, key, keyAlias, iv } data).outcome =
      (service.default.decrypt ⟨data, { algorithm, key, keyAlias, iv }⟩).outcome := by
  simp [decryptBytes, select]

/-- Bytes encrypted under an explicit algorithm and key are decrypted to the plaintext exactly if
they spell no template. -/
theorem decryptBytes_encryptBytes_iff (hdefault : service.default = provider.toProvider)
    (htransform : Transform.parse algorithm = .ok transform)
    (hsymmetric : transform.isSymmetric = true)
    (hresult : (service.encryptBytes { algorithm := some algorithm, key := some key, iv } entropy
      plain).outcome = .ok result) :
    (service.decryptBytes { algorithm := some algorithm, key := some key }
        result.bytes).outcome = .ok ⟨plain⟩ ↔
      TemplateProvider.template? result.bytes = none := by
  rw [outcome_encryptBytes, hdefault] at hresult
  obtain ⟨resolved, parsed, data, hresolved, hparsed, hdata, rfl⟩ :=
    TemplateProvider.encrypt_eq_ok_iff.mp hresult
  obtain rfl := Except.ok.inj
    ((Resolved.resolve_explicit _ _ algorithm key iv none).symm.trans hresolved)
  obtain rfl : transform = parsed := Except.ok.inj (htransform.symm.trans hparsed)
  rw [outcome_decryptBytes, hdefault]
  exact TemplateProvider.decrypt_explicit_iff hsymmetric htransform
    (Transform.decrypt_of_encrypt hsymmetric hdata)

/-- Two bytes in one padded block, which is no text. -/
theorem decryptBytes_two_bytes :
    (decryptBytes
      (.ofProviders ⟨0, (TemplateProvider.mk (.ofKeys (.empty "main")) {}).toProvider⟩ [])
      { algorithm := some "aes", key := some (.ofSecret (List.replicate 16 7)) }
      [114, 252, 108, 175, 76, 198, 45, 27, 199, 195, 213, 73, 29, 85, 207, 50]).outcome =
        .ok ⟨[104, 105]⟩ := by
  have htransform : (Transform.parse "aes").toOption = some (.aes .ecb .pkcs7) := by
    decide +kernel
  have hresult : (encryptBytes
      (.ofProviders ⟨0, (TemplateProvider.mk (.ofKeys (.empty "main")) {}).toProvider⟩ [])
      { algorithm := some "aes", key := some (.ofSecret (List.replicate 16 7)), iv := none }
      ⟨fun _ => 0, fun _ => ⟨1, by decide⟩⟩ [104, 105]).outcome.toOption =
        some ⟨⟨none, [114, 252, 108, 175, 76, 198, 45, 27, 199, 195, 213, 73, 29, 85, 207, 50]⟩,
          "aes", none, "v2c"⟩ := by
    decide +kernel
  have hraw : TemplateProvider.template?
      [114, 252, 108, 175, 76, 198, 45, 27, 199, 195, 213, 73, 29, 85, 207, 50] = none := by
    decide +kernel
  exact (decryptBytes_encryptBytes_iff rfl (Outcome.toOption_eq_some.mp htransform) rfl
    (Outcome.toOption_eq_some.mp hresult)).mpr hraw

/-- One block that encrypts to a template with a payload that is no base64.  Decrypted as raw bytes
it is refused for that payload. -/
theorem decryptBytes_of_spelled_template :
    ∃ result, (encryptBytes
        (.ofProviders ⟨0, (TemplateProvider.mk (.ofKeys (.empty "main")) {}).toProvider⟩ [])
        { algorithm := some "AES/ECB/NoPadding", key := some (.ofSecret (List.replicate 16 7)) }
        ⟨fun _ => 0, fun _ => ⟨1, by decide⟩⟩
        [243, 210, 200, 131, 100, 240, 133, 235, 214, 5, 54, 250, 216, 243, 118, 180]).outcome =
          .ok result ∧
      result.bytes = Utf8.encode "{v2c}{a}{k}{AAA}" ∧
      (decryptBytes
        (.ofProviders ⟨0, (TemplateProvider.mk (.ofKeys (.empty "main")) {}).toProvider⟩ [])
        { algorithm := some "AES/ECB/NoPadding", key := some (.ofSecret (List.replicate 16 7)) }
        result.bytes).outcome = .error (.failure (.base64 .invalidPadding)) := by
  have hresult : (encryptBytes
      (.ofProviders ⟨0, (TemplateProvider.mk (.ofKeys (.empty "main")) {}).toProvider⟩ [])
      { algorithm := some "AES/ECB/NoPadding", key := some (.ofSecret (List.replicate 16 7)) }
      ⟨fun _ => 0, fun _ => ⟨1, by decide⟩⟩
      [243, 210, 200, 131, 100, 240, 133, 235, 214, 5, 54, 250, 216, 243, 118,
        180]).outcome.toOption = some ⟨⟨none, Utf8.encode "{v2c}{a}{k}{AAA}"⟩,
          "AES/ECB/NoPadding", none, "v2c"⟩ := by
    decide +kernel
  have htransform : (Transform.parse "AES/ECB/NoPadding").toOption = some (.aes .ecb .none) := by
    decide +kernel
  have hparse : Template.parse? TemplateProvider.tag
      "{v2c}{a}{k}{AAA}" = some ⟨"a", "k", "AAA"⟩ := by
    decide +kernel
  have hpayload : TemplateProvider.payload
      (Utf8.encode "{v2c}{a}{k}{AAA}") (some ⟨"a", "k", "AAA"⟩) =
        .error (.failure (.base64 .invalidPadding)) := by
    rfl
  have hrefused : ((TemplateProvider.mk (.ofKeys (.empty "main")) {}).decrypt
      ⟨Utf8.encode "{v2c}{a}{k}{AAA}",
        { algorithm := some "AES/ECB/NoPadding",
          key := some (.ofSecret (List.replicate 16 7)) }⟩).outcome =
        .error (.failure (.base64 .invalidPadding)) := by
    apply TemplateProvider.decrypt_of_payload_error
    · exact Resolved.resolve_explicit _ _ _ _ none _
    · exact Outcome.toOption_eq_some.mp htransform
    · rw [TemplateProvider.template?_encode, hparse]
      exact hpayload
  exact ⟨_, Outcome.toOption_eq_some.mp hresult, rfl, (outcome_decryptBytes ..).trans hrefused⟩

end Service

end CipherVault
