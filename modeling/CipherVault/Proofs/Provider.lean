import CipherVault.Proofs.Resolution
import CipherVault.Proofs.Template
import CipherVault.Proofs.Transform
import CipherVault.Provider
/-!
# Runs of the template provider

What a successful run went through, step by step.  The decryption of a template comes down to that
of its payload under the parameters that the template names where the request sets none.
-/

namespace CipherVault.TemplateProvider

variable {provider : TemplateProvider} {entropy : Entropy}

theorem encrypt_eq_ok_iff {request : EncryptionRequest} {result : EncryptResult} :
    (provider.encrypt entropy request).outcome = .ok result ↔
      ∃ resolved transform data, provider.resolve request.parameters none = .ok resolved ∧
        Transform.parse resolved.algorithm = .ok transform ∧
        transform.encrypt resolved.key.material entropy request.parameters.iv request.plaintext =
          .ok data ∧
        result = ⟨data, resolved.algorithm, resolved.key.keyAlias?, tag⟩ := by
  simp only [encrypt, Traced.outcome_bind, Traced.outcome_ofExcept, Traced.outcome_reportAll,
    Traced.outcome_reportFailure, Traced.outcome_pure, Outcome.ok_bind, Outcome.bind_eq_ok]
  constructor
  · intro h
    obtain ⟨resolved, hresolved, transform, htransform, data, hdata, hresult⟩ := h
    exact ⟨resolved, transform, data, hresolved, htransform, hdata, (Except.ok.inj hresult).symm⟩
  · intro h
    obtain ⟨resolved, transform, data, hresolved, htransform, hdata, rfl⟩ := h
    exact ⟨resolved, hresolved, transform, htransform, data, hdata, rfl⟩

theorem decrypt_eq_ok_iff {request : DecryptionRequest} {result : DecryptResult} :
    (provider.decrypt request).outcome = .ok result ↔
      ∃ resolved transform bytes plain,
        provider.resolve request.parameters ((template? request.ciphertext).map Template.metaInfo) =
          .ok resolved ∧
        Transform.parse resolved.algorithm = .ok transform ∧
        payload request.ciphertext (template? request.ciphertext) = .ok bytes ∧
        transform.decrypt resolved.key.material bytes = .ok plain ∧ result = ⟨plain⟩ := by
  simp only [decrypt, Traced.outcome_bind, Traced.outcome_ofExcept, Traced.outcome_reportFailure,
    Traced.outcome_pure, Outcome.bind_eq_ok]
  constructor
  · intro h
    obtain ⟨resolved, hresolved, transform, htransform, bytes, hbytes, plain, hplain, hresult⟩ := h
    exact ⟨resolved, transform, bytes, plain, hresolved, htransform, hbytes, hplain,
      (Except.ok.inj hresult).symm⟩
  · intro h
    obtain ⟨resolved, transform, bytes, plain, hresolved, htransform, hbytes, hplain, rfl⟩ := h
    exact ⟨resolved, hresolved, transform, htransform, bytes, hbytes, plain, hplain, rfl⟩

theorem decrypt_of_resolve_error {request : DecryptionRequest} {e : CipherError}
    (h : provider.resolve request.parameters
      ((template? request.ciphertext).map Template.metaInfo) = .error e) :
    (provider.decrypt request).outcome = .error e := by
  simp only [decrypt, Traced.outcome_bind, Traced.outcome_ofExcept, h, Outcome.error_bind]

theorem decrypt_of_payload_error {request : DecryptionRequest} {resolved : Resolved}
    {transform : Transform} {e : CipherError}
    (hresolved : provider.resolve request.parameters
      ((template? request.ciphertext).map Template.metaInfo) = .ok resolved)
    (htransform : Transform.parse resolved.algorithm = .ok transform)
    (hpayload : payload request.ciphertext (template? request.ciphertext) = .error e) :
    (provider.decrypt request).outcome = .error e := by
  simp only [decrypt, Traced.outcome_bind, Traced.outcome_ofExcept, hresolved, htransform, hpayload,
    Outcome.ok_bind, Outcome.error_bind]

@[simp]
theorem template?_encode (text : String) :
    template? (Utf8.encode text) = Template.parse? tag text := by
  rw [template?, Utf8.decode_encode]
  rfl

/-- Of a template, decryption takes everything but the key. -/
theorem decrypt_template {text : String} {template : Template} {key : ResolvedKey}
    {transform : Transform} {payload plain : Bytes}
    (htemplate : Template.parse? tag text = some template)
    (hresolved : provider.resolve {} (some template.metaInfo) = .ok ⟨template.algorithm, key⟩)
    (htransform : Transform.parse template.algorithm = .ok transform)
    (hpayload : Base64.decode template.payload = .ok payload)
    (hplain : transform.decrypt key.material payload = .ok plain) :
    (provider.decrypt ⟨Utf8.encode text, {}⟩).outcome = .ok ⟨plain⟩ := by
  have hbytes : TemplateProvider.payload (Utf8.encode text) (some template) = .ok payload := by
    rw [TemplateProvider.payload, Outcome.mapError_eq_ok]
    exact hpayload
  simp only [decrypt, Traced.outcome_bind, Traced.outcome_ofExcept, Traced.outcome_reportFailure,
    Traced.outcome_pure, template?_encode, htemplate, Option.map_some, hresolved, htransform,
    hbytes, hplain, Outcome.ok_bind]

/-- An exported result names the algorithm and the alias that the request or the defaults gave, and
the key under that alias turns its bytes back into the plaintext. -/
theorem exported_of_encrypt {request : EncryptionRequest} {result : EncryptResult} {text : String}
    {transform : Transform} (hresult : (provider.encrypt entropy request).outcome = .ok result)
    (htransform : Transform.parse result.algorithm = .ok transform)
    (hsymmetric : transform.isSymmetric = true) (htext : result.template = .ok text) :
    ∃ keyAlias material, result.keyAlias = some keyAlias ∧
      (request.parameters.algorithm <|> provider.defaults.algorithm) = some result.algorithm ∧
      (request.parameters.keyAlias <|> provider.defaults.keyAlias) = some keyAlias ∧
      (provider.keystore.find? keyAlias).map (·.material) = some material ∧
      Template.parse? tag text = some ⟨result.algorithm, keyAlias, result.base64⟩ ∧
      transform.decrypt material result.bytes = .ok request.plaintext := by
  obtain ⟨resolved, parsed, data, hresolved, hparsed, hdata, rfl⟩ := encrypt_eq_ok_iff.mp hresult
  obtain ⟨keyAlias, hkeyAlias, hparse⟩ := EncryptResult.template_eq_ok_iff.mp htext
  obtain ⟨halgorithm, hkey⟩ := Resolved.resolve_eq_ok_iff.mp hresolved
  rw [Resolved.chooseAlgorithm_eq] at halgorithm
  obtain ⟨halias, hmaterial⟩ := Resolved.chooseKey_stored hkey hkeyAlias
  obtain rfl : parsed = transform := Except.ok.inj (hparsed.symm.trans htransform)
  exact ⟨keyAlias, _, hkeyAlias, halgorithm, halias, hmaterial, hparse,
    Transform.decrypt_of_encrypt hsymmetric hdata⟩

/-- A template is decrypted as its payload would be with the parameters that are not set taken from
the template: with the same plaintext or error and the same reports.  Neither the defaults nor an
initialization vector on the request have a part in it. -/
theorem decrypt_template_eq_payload {text : String} {template : Template} (parameters : Parameters)
    (htemplate : Template.parse? tag text = some template) :
    (∀ bytes, Base64.decode template.payload = .ok bytes → template? bytes = none →
      provider.decrypt ⟨Utf8.encode text, parameters⟩ =
        provider.decrypt ⟨bytes, parameters.fill template.metaInfo⟩) ∧
    ∀ (defaults : Defaults) (iv : Option Bytes),
      (TemplateProvider.mk provider.keystore defaults).decrypt
          ⟨Utf8.encode text, { parameters with iv }⟩ =
        provider.decrypt ⟨Utf8.encode text, parameters⟩ := by
  constructor
  · intro bytes hbytes hraw
    have hpayload : payload (Utf8.encode text) (some template) = .ok bytes := by
      rw [payload, hbytes]
      rfl
    have hresolve : provider.resolve parameters (some template.metaInfo) =
        provider.resolve (parameters.fill template.metaInfo) none :=
      Resolved.resolve_some_eq_fill _ _ _ _ _
    simp only [decrypt, template?_encode, htemplate, hraw, Option.map_some, Option.map_none,
      hresolve, hpayload]
    rfl
  · intro defaults iv
    have hresolve : (TemplateProvider.mk provider.keystore defaults).resolve { parameters with iv }
        (some template.metaInfo) = provider.resolve parameters (some template.metaInfo) :=
      calc
        _ = Resolved.resolve provider.keystore {} (parameters.fill template.metaInfo) none :=
          Resolved.resolve_some_eq_fill _ _ _ _ _
        _ = _ := (Resolved.resolve_some_eq_fill _ _ _ _ _).symm
    simp only [decrypt, template?_encode, htemplate, Option.map_some, hresolve]

/-- A template under a pinned vector, with the alias overridden by the request, and its sixteen
bytes under the algorithm that the template names. -/
theorem decrypt_template_other_alias :
    Template.parse? tag "{v2c}{aes}{k}{cvxsr0zGLRvHw9VJHVXPMg==}" =
        some ⟨"aes", "k", "cvxsr0zGLRvHw9VJHVXPMg=="⟩ ∧
      (TemplateProvider.mk (.ofKeys ((StaticStore.empty "main").insert "l"
          (.ofSecret (List.replicate 16 7)))) ⟨some "rsa", some "m", none⟩).decrypt
        ⟨Utf8.encode "{v2c}{aes}{k}{cvxsr0zGLRvHw9VJHVXPMg==}",
          { keyAlias := some "l", iv := some [1] }⟩ =
      (TemplateProvider.mk (.ofKeys ((StaticStore.empty "main").insert "l"
          (.ofSecret (List.replicate 16 7)))) ⟨some "rsa", some "m", none⟩).decrypt
        ⟨[114, 252, 108, 175, 76, 198, 45, 27, 199, 195, 213, 73, 29, 85, 207, 50],
          { algorithm := some "aes", keyAlias := some "l", iv := some [1] }⟩ := by
  have hparse : Template.parse? tag
      "{v2c}{aes}{k}{cvxsr0zGLRvHw9VJHVXPMg==}" =
        some ⟨"aes", "k", "cvxsr0zGLRvHw9VJHVXPMg=="⟩ := by decide +kernel
  have hbytes : (Base64.decode "cvxsr0zGLRvHw9VJHVXPMg==").toOption =
      some [114, 252, 108, 175, 76, 198, 45, 27, 199, 195, 213, 73, 29, 85, 207, 50] := by
    decide +kernel
  have hraw : template? [114, 252, 108, 175, 76, 198, 45, 27, 199, 195, 213, 73, 29, 85, 207, 50] =
      none := by decide +kernel
  exact ⟨hparse, (decrypt_template_eq_payload { keyAlias := some "l", iv := some [1] } hparse).1 _
    (Outcome.toOption_eq_some.mp hbytes) hraw⟩

end CipherVault.TemplateProvider
