import CipherVault.Proofs.Provider
import CipherVault.Service
/-!
# Templates are portable

A template exported by one provider is decrypted by every service whose first provider has the key:
all else that decryption needs stands in the template.
-/

namespace CipherVault.Service

variable {service : Service} {first : TemplateProvider} {text : String}

theorem recognizing?_first (hfirst : service.providers.head? = some first.toProvider)
    {template : Template} (htemplate : Template.parse? TemplateProvider.tag text = some template) :
    service.recognizing? text = some first.toProvider := by
  have hrecognizes : first.toProvider.recognizes text = true :=
    Option.isSome_iff_exists.mpr ⟨template, htemplate⟩
  obtain ⟨rest, hproviders⟩ := List.head?_eq_some_iff.mp hfirst
  rw [recognizing?, hproviders]
  exact List.find?_cons_of_pos hrecognizes

/-- A text exported by any provider, under any entropy, is decrypted to the plaintext by every
service whose first provider finds the same key under the exported alias, whatever the defaults of
that provider are.  Of the text the service reports the algorithm as the request or the defaults of
the encrypting provider spelled it, and their alias. -/
theorem decrypt_exported {provider : TemplateProvider} {entropy : Entropy}
    {request : EncryptionRequest} {result : EncryptResult} {transform : Transform}
    (hresult : (provider.encrypt entropy request).outcome = .ok result)
    (htransform : Transform.parse result.algorithm = .ok transform)
    (hsymmetric : transform.isSymmetric = true) (htext : result.template = .ok text)
    (hfirst : service.providers.head? = some first.toProvider)
    (hkey : ∀ keyAlias, result.keyAlias = some keyAlias →
      (first.keystore.find? keyAlias).map (·.material) =
        (provider.keystore.find? keyAlias).map (·.material)) :
    (service.decrypt text).outcome = .ok ⟨request.plaintext⟩ ∧
      ∃ algorithm keyAlias,
        (request.parameters.algorithm <|> provider.defaults.algorithm) = some algorithm ∧
        (request.parameters.keyAlias <|> provider.defaults.keyAlias) = some keyAlias ∧
        result.keyAlias = some keyAlias ∧
        service.metaInfo? text = some ⟨algorithm, keyAlias⟩ := by
  obtain ⟨keyAlias, material, hkeyAlias, halgorithm, halias, hmaterial, hparse, hplain⟩ :=
    TemplateProvider.exported_of_encrypt hresult htransform hsymmetric htext
  have hrecognizing := recognizing?_first hfirst hparse
  have hsame := (hkey keyAlias hkeyAlias).trans hmaterial
  refine ⟨?_, result.algorithm, keyAlias, halgorithm, halias, hkeyAlias, ?_⟩
  · have hembedded : ((first.keystore.find? (MetaInfo.mk result.algorithm keyAlias).keyAlias).map
        (·.material)) = some material := hsame
    obtain ⟨key, rfl, hresolved⟩ := Resolved.resolve_embedded first.defaults hembedded
    rw [decrypt, hrecognizing]
    exact TemplateProvider.decrypt_template hparse hresolved htransform
      (Base64.decode_encode result.bytes) hplain
  · rw [metaInfo?, hrecognizing, Option.bind_some]
    change (Template.parse? TemplateProvider.tag text).map Template.metaInfo = _
    rw [hparse]
    rfl

/-- Two bytes encrypted with the defaults of one provider and decrypted by another one that has the
key in a keystore of its own and no defaults. -/
theorem decrypt_exported_two_bytes :
    (decrypt
      ⟨(TemplateProvider.mk (.ofKeys ((StaticStore.empty "backup").insert "k"
          (.ofSecret (List.replicate 16 7)) (some true))) {}).toProvider,
        [(TemplateProvider.mk (.ofKeys ((StaticStore.empty "backup").insert "k"
          (.ofSecret (List.replicate 16 7)) (some true))) {}).toProvider]⟩
      "\x7bv2c\x7d\x7baes\x7d\x7bk\x7d\x7bcvxsr0zGLRvHw9VJHVXPMg==\x7d").outcome =
      .ok ⟨[104, 105]⟩ := by
  have hresult : ((TemplateProvider.mk (.ofKeys ((StaticStore.empty "main").insert "k"
      (.ofSecret (List.replicate 16 7)))) ⟨some "aes", some "k", none⟩).encrypt
        ⟨fun _ => 0, fun _ => ⟨1, by decide⟩⟩ ⟨[104, 105], {}⟩).outcome.toOption =
      some ⟨⟨none, [114, 252, 108, 175, 76, 198, 45, 27, 199, 195, 213, 73, 29, 85, 207, 50]⟩,
        "aes", some "k", "v2c"⟩ := by
    decide +kernel
  have htransform : (Transform.parse "aes").toOption = some (.aes .ecb .pkcs7) := by
    decide +kernel
  have htext : (EncryptResult.mk ⟨none,
      [114, 252, 108, 175, 76, 198, 45, 27, 199, 195, 213, 73, 29, 85, 207, 50]⟩
        "aes" (some "k") "v2c").template.toOption =
      some "\x7bv2c\x7d\x7baes\x7d\x7bk\x7d\x7bcvxsr0zGLRvHw9VJHVXPMg==\x7d" := by
    decide +kernel
  have hkey : ∀ keyAlias, some "k" = some keyAlias →
      ((KeyStore.ofKeys ((StaticStore.empty "backup").insert "k"
        (.ofSecret (List.replicate 16 7)) (some true))).find? keyAlias).map (·.material) =
      ((KeyStore.ofKeys ((StaticStore.empty "main").insert "k"
        (.ofSecret (List.replicate 16 7)))).find? keyAlias).map (·.material) := by
    rintro _ ⟨rfl⟩
    decide +kernel
  exact (decrypt_exported (Outcome.toOption_eq_some.mp hresult)
    (Outcome.toOption_eq_some.mp htransform) rfl (Outcome.toOption_eq_some.mp htext) rfl hkey).1

end CipherVault.Service

