import CipherVault.Proofs.Service
/-!
# What a service reads of what it writes

A service encrypts with its default provider, but the first provider that recognizes a text decrypts
it, and every provider of templates recognizes every template.  What the service wrote is read back
when the provider at the head of the list has the key; the others are not asked when it lacks one.
-/

namespace CipherVault.Service

/-- The service over providers of templates, each under its handle. -/
def ofTemplates (default : Nat × TemplateProvider) (listed : List (Nat × TemplateProvider)) :
    Service :=
  ofProviders ⟨default.1, default.2.toProvider⟩
    (listed.map fun registered => ⟨registered.1, registered.2.toProvider⟩)

/-- The provider that decrypts templates: the first one listed, or the default one alone. -/
def templateReader (default : Nat × TemplateProvider) (listed : List (Nat × TemplateProvider)) :
    TemplateProvider :=
  (listed.headD default).2

variable {default : Nat × TemplateProvider} {listed : List (Nat × TemplateProvider)}

theorem head?_providers_ofTemplates :
    (ofTemplates default listed).providers.head? =
      some (templateReader default listed).toProvider := by
  cases listed with
  | nil => rfl
  | cons first rest =>
    rw [ofTemplates, ofProviders]
    split
    · rfl
    · rfl

/-- A text is encrypted by the default provider alone. -/
theorem encrypt_eq_ok_iff {service : Service} {entropy : Entropy} {text encrypted : String} :
    (service.encrypt entropy text).outcome = .ok encrypted ↔
      ∃ result, (service.default.encrypt entropy ⟨Utf8.encode text, {}⟩).outcome = .ok result ∧
        result.template = .ok encrypted := by
  simp only [encrypt, encryptText, encryptBytes, select, Traced.outcome_bind,
    Traced.outcome_ofExcept, Traced.outcome_report, Outcome.ok_bind, Outcome.bind_eq_ok]

/-- A template is decrypted by the provider that is asked first, whichever wrote it. -/
theorem outcome_decrypt_of_template {service : Service} {first : TemplateProvider} {text : String}
    {template : Template} (hfirst : service.providers.head? = some first.toProvider)
    (htemplate : Template.parse? TemplateProvider.tag text = some template) :
    (service.decrypt text).outcome = (first.decrypt ⟨Utf8.encode text, {}⟩).outcome := by
  rw [decrypt, recognizing?_first hfirst htemplate]
  rfl

/-- A text that the service encrypted is decrypted to itself if the provider that is asked first has
the key that the default provider took.  If it has none under that alias, decryption fails for the
alias, also where another provider of the service has the key. -/
theorem decrypt_encrypt_of_reader {entropy : Entropy} {text encrypted algorithm : String}
    {transform : Transform} (halgorithm : default.2.defaults.algorithm = some algorithm)
    (htransform : Transform.parse algorithm = .ok transform)
    (hsymmetric : transform.isSymmetric = true)
    (hencrypted : ((ofTemplates default listed).encrypt entropy text).outcome = .ok encrypted) :
    ∃ keyAlias, default.2.defaults.keyAlias = some keyAlias ∧
      (((templateReader default listed).keystore.find? keyAlias).map (·.material) =
          (default.2.keystore.find? keyAlias).map (·.material) →
        ∃ result, ((ofTemplates default listed).decrypt encrypted).outcome = .ok result ∧
          result.text = .ok text) ∧
      ((templateReader default listed).keystore.find? keyAlias = none →
        ((ofTemplates default listed).decrypt encrypted).outcome =
          .error (.keyNotFound keyAlias)) := by
  obtain ⟨written, hwritten, htemplate⟩ := encrypt_eq_ok_iff.mp hencrypted
  have hchosen : written.algorithm = algorithm := by
    obtain ⟨resolved, -, data, hresolved, -, -, rfl⟩ :=
      TemplateProvider.encrypt_eq_ok_iff.mp hwritten
    exact Option.some.inj ((Resolved.resolve_eq_ok_iff.mp hresolved).1.symm.trans halgorithm)
  subst hchosen
  obtain ⟨keyAlias, material, -, -, halias, hmaterial, hparse, hplain⟩ :=
    TemplateProvider.exported_of_encrypt hwritten htransform hsymmetric htemplate
  rw [outcome_decrypt_of_template head?_providers_ofTemplates hparse]
  refine ⟨keyAlias, halias, ?_, ?_⟩
  · intro hkey
    have hembedded : ((templateReader default listed).keystore.find?
        (MetaInfo.mk written.algorithm keyAlias).keyAlias).map (·.material) = some material :=
      hkey.trans hmaterial
    obtain ⟨key, rfl, hresolved⟩ := Resolved.resolve_embedded
      (templateReader default listed).defaults hembedded
    refine ⟨⟨Utf8.encode text⟩, ?_, ?_⟩
    · exact TemplateProvider.decrypt_template hparse hresolved htransform
        (Base64.decode_encode written.bytes) hplain
    · rw [DecryptResult.text, Utf8.decode_encode]
      rfl
  · intro hmissing
    apply TemplateProvider.decrypt_of_resolve_error
    rw [TemplateProvider.template?_encode, hparse]
    exact Resolved.resolve_embedded_missing _ hmissing

/-- A provider that holds one key of sixteen bytes. -/
def sampleProvider (identity : String) (defaults : Defaults) : TemplateProvider :=
  ⟨.ofKeys ((StaticStore.empty identity).insert "k" (.ofSecret (List.replicate 16 7))), defaults⟩

/-- A text of two bytes, encrypted by the default provider whatever else is listed. -/
theorem encrypt_hi (listed : List (Nat × TemplateProvider)) :
    ((ofTemplates (0, sampleProvider "main" ⟨some "AES", some "k", none⟩) listed).encrypt
      ⟨fun _ => 0, fun _ => ⟨1, by decide⟩⟩ "hi").outcome =
        .ok "{v2c}{AES}{k}{cvxsr0zGLRvHw9VJHVXPMg==}" := by
  have hresult : ((sampleProvider "main" ⟨some "AES", some "k", none⟩).encrypt
      ⟨fun _ => 0, fun _ => ⟨1, by decide⟩⟩ ⟨Utf8.encode "hi", {}⟩).outcome.toOption =
      some ⟨⟨none, [114, 252, 108, 175, 76, 198, 45, 27, 199, 195, 213, 73, 29, 85, 207, 50]⟩,
        "AES", some "k", "v2c"⟩ := by
    decide +kernel
  have htemplate : (EncryptResult.mk ⟨none,
      [114, 252, 108, 175, 76, 198, 45, 27, 199, 195, 213, 73, 29, 85, 207, 50]⟩
        "AES" (some "k") "v2c").template.toOption =
      some "{v2c}{AES}{k}{cvxsr0zGLRvHw9VJHVXPMg==}" := by
    decide +kernel
  exact encrypt_eq_ok_iff.mpr
    ⟨_, Outcome.toOption_eq_some.mp hresult, Outcome.toOption_eq_some.mp htemplate⟩

/-- The provider listed first has the key in a keystore of its own and no defaults. -/
theorem decrypt_hi_of_backup :
    ∃ result, ((ofTemplates (0, sampleProvider "main" ⟨some "AES", some "k", none⟩)
      [(1, sampleProvider "backup" {})]).decrypt
        "{v2c}{AES}{k}{cvxsr0zGLRvHw9VJHVXPMg==}").outcome =
          .ok result ∧ result.text = .ok "hi" := by
  have htransform : (Transform.parse "AES").toOption = some (.aes .ecb .pkcs7) := by
    decide +kernel
  obtain ⟨keyAlias, halias, hread, -⟩ := decrypt_encrypt_of_reader rfl
    (Outcome.toOption_eq_some.mp htransform) rfl (encrypt_hi [(1, sampleProvider "backup" {})])
  obtain rfl := Option.some.inj halias
  exact hread (by decide +kernel)

/-- The provider listed first has no keys; that the default one behind it has the key is of no
use. -/
theorem decrypt_hi_of_other :
    ((ofTemplates (0, sampleProvider "main" ⟨some "AES", some "k", none⟩)
      [(1, ⟨.ofKeys (.empty "other"), {}⟩)]).encrypt
        ⟨fun _ => 0, fun _ => ⟨1, by decide⟩⟩ "hi").outcome =
          .ok "{v2c}{AES}{k}{cvxsr0zGLRvHw9VJHVXPMg==}" ∧
    (∃ transform, Transform.parse "AES" = .ok transform ∧ transform.isSymmetric = true) ∧
    ((ofTemplates (0, sampleProvider "main" ⟨some "AES", some "k", none⟩)
      [(1, ⟨.ofKeys (.empty "other"), {}⟩)]).decrypt
        "{v2c}{AES}{k}{cvxsr0zGLRvHw9VJHVXPMg==}").outcome =
          .error (.keyNotFound "k") := by
  have htransform : (Transform.parse "AES").toOption = some (.aes .ecb .pkcs7) := by
    decide +kernel
  have hparse : Template.parse? TemplateProvider.tag
      "{v2c}{AES}{k}{cvxsr0zGLRvHw9VJHVXPMg==}" =
        some ⟨"AES", "k", "cvxsr0zGLRvHw9VJHVXPMg=="⟩ := by
    decide +kernel
  refine ⟨encrypt_hi _, ⟨_, Outcome.toOption_eq_some.mp htransform, rfl⟩, ?_⟩
  rw [outcome_decrypt_of_template head?_providers_ofTemplates hparse]
  apply TemplateProvider.decrypt_of_resolve_error
  rw [TemplateProvider.template?_encode, hparse]
  exact Resolved.resolve_embedded_missing _ rfl

end CipherVault.Service
