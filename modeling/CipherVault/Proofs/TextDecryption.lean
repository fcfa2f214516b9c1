import CipherVault.Proofs.Dispatch
import CipherVault.Proofs.ExplicitKey
/-!
# Two routes of decrypting a text

A text can be given to a service for any of its providers, or with explicit parameters to the
default one.  Over providers of templates both routes look for a template first and for base64 then,
and give what they find to a provider; they differ on texts that are neither and on blank ones only.
-/

namespace CipherVault

open Outcome (FailsOnly)

/-! ## No provider of templates calls a text unrecognized -/

/-- The errors of resolution: nothing to take a parameter from, or no key under an alias. -/
def CipherError.IsOfResolution : CipherError → Prop
  | keyNotFound _ | missingDefault _ => True
  | _ => False

namespace Resolved

variable {store : KeyStore} {defaults : Defaults} {parameters : Parameters}
  {embedded : Option MetaInfo}

theorem lookUp_failsOnly (keyAlias : String) :
    FailsOnly (·.IsOfResolution) (lookUp store keyAlias) := by
  rw [lookUp]
  split
  · exact .ok _
  · exact .error trivial

theorem chooseKey_failsOnly :
    FailsOnly (·.IsOfResolution) (chooseKey store parameters embedded defaults) := by
  rw [chooseKey_eq]
  split
  · exact .ok _
  · rw [storedKey]
    split
    · exact lookUp_failsOnly _
    · exact .error trivial

theorem resolve_failsOnly_resolution :
    FailsOnly (·.IsOfResolution) (resolve store defaults parameters embedded) := by
  rw [resolve]
  split
  · exact .error trivial
  · exact chooseKey_failsOnly.map _

end Resolved

namespace TemplateProvider

@[simp]
theorem recognizes_toProvider (provider : TemplateProvider) (text : String) :
    provider.toProvider.recognizes text = (Template.parse? tag text).isSome := rfl

@[simp]
theorem metaInfo?_toProvider (provider : TemplateProvider) (text : String) :
    provider.toProvider.metaInfo? text = (Template.parse? tag text).map Template.metaInfo := rfl

/-- Whatever a provider of templates fails for, it is not that it does not know the format. -/
theorem decrypt_failsOnly (provider : TemplateProvider) (request : DecryptionRequest) :
    FailsOnly (· ≠ .unrecognized) (provider.decrypt request).outcome := by
  have hresolution : ∀ e : CipherError, e.IsOfResolution → e ≠ .unrecognized := by
    rintro _ h rfl
    exact h
  have htransform : ∀ e : CipherError, e.IsOfTransform → e ≠ .unrecognized := by
    rintro _ h rfl
    exact h
  simp only [decrypt, Traced.outcome_bind, Traced.outcome_ofExcept, Traced.outcome_reportFailure,
    Traced.outcome_pure]
  apply (Resolved.resolve_failsOnly_resolution.imp hresolution).bind
  intro resolved _
  apply ((Transform.parse_failsOnly _).imp htransform).bind
  intro transform _
  apply ((payload_failsOnly _ _).imp htransform).bind
  intro payload _
  apply ((Transform.decrypt_failsOnly _).imp htransform).bind
  intro plaintext _
  exact .ok _

end TemplateProvider

namespace Service

/-! ## Recognition -/

variable {default : Nat × TemplateProvider} {listed : List (Nat × TemplateProvider)}

theorem exists_template_of_mem_providers {provider : Provider}
    (h : provider ∈ (ofTemplates default listed).providers) :
    ∃ templates : TemplateProvider, provider = templates.toProvider := by
  obtain ⟨registered, hregistered, rfl⟩ := List.mem_map.mp h
  have hlisted : registered ∈ listed.map (fun r => Registration.mk r.1 r.2.toProvider) →
      ∃ templates : TemplateProvider, registered.provider = templates.toProvider := by
    intro hmem
    obtain ⟨r, -, rfl⟩ := List.mem_map.mp hmem
    exact ⟨r.2, rfl⟩
  split at hregistered
  · exact hlisted hregistered
  · rcases List.mem_append.mp hregistered with hmem | hmem
    · exact hlisted hmem
    · obtain rfl := List.mem_singleton.mp hmem
      exact ⟨default.2, rfl⟩

/-- A text is recognized if it is a template, by the provider that is asked first. -/
theorem recognizing?_ofTemplates (text : String) :
    (ofTemplates default listed).recognizing? text =
      (Template.parse? TemplateProvider.tag text).map
        fun _ => (templateReader default listed).toProvider := by
  cases hparse : Template.parse? TemplateProvider.tag text with
  | some template => exact recognizing?_first head?_providers_ofTemplates hparse
  | none =>
    rw [recognizing?, Option.map_none, List.find?_eq_none]
    intro provider hmem
    obtain ⟨templates, rfl⟩ := exists_template_of_mem_providers hmem
    simp [hparse]

theorem metaInfo?_ofTemplates (text : String) :
    (ofTemplates default listed).metaInfo? text =
      (Template.parse? TemplateProvider.tag text).map Template.metaInfo := by
  rw [metaInfo?, recognizing?_ofTemplates]
  cases hparse : Template.parse? TemplateProvider.tag text with
  | some template => simp [hparse]
  | none => rfl

/-! ## The run behind both routes -/

/-- What both routes come to: bytes are given to a provider, and the log says to which. -/
def handOver (provider : Provider) (ciphertext : Bytes) : Traced CipherError DecryptResult := do
  Traced.report (.dispatched "decrypt" provider.name)
  provider.decrypt ⟨ciphertext, {}⟩

theorem handOver_failsOnly (provider : TemplateProvider) (ciphertext : Bytes) :
    FailsOnly (· ≠ .unrecognized) (handOver provider.toProvider ciphertext).outcome :=
  provider.decrypt_failsOnly ⟨ciphertext, {}⟩

variable {service : Service} {text : String}

theorem decryptText_eq (service : Service) (text : String) :
    service.decryptText {} text =
      Traced.ofExcept (ciphertextOf service.default text) >>= handOver service.default := rfl

theorem decrypt_of_template {template : Template}
    (h : Template.parse? TemplateProvider.tag text = some template) :
    (ofTemplates default listed).decrypt text =
      handOver (templateReader default listed).toProvider (Utf8.encode text) := by
  rw [decrypt, recognizing?_ofTemplates, h]
  rfl

theorem decrypt_of_noTemplate (h : Template.parse? TemplateProvider.tag text = none) :
    (ofTemplates default listed).decrypt text =
      Traced.ofExcept (unrecognizedPayload text) >>= handOver default.2.toProvider := by
  rw [decrypt, recognizing?_ofTemplates, h]
  rfl

theorem ciphertextOf_of_template (provider : TemplateProvider) {template : Template}
    (h : Template.parse? TemplateProvider.tag text = some template) :
    ciphertextOf provider.toProvider text = .ok (Utf8.encode text) :=
  if_pos (by simp [h])

theorem ciphertextOf_of_noTemplate (provider : TemplateProvider)
    (h : Template.parse? TemplateProvider.tag text = none) :
    ciphertextOf provider.toProvider text =
      (Base64.decode (Text.trim text)).mapError fun _ => .failure .notEncoded :=
  if_neg (by simp [h])

theorem unrecognizedPayload_eq_ok_iff {bytes : Bytes} :
    unrecognizedPayload text = .ok bytes ↔
      Text.trim text ≠ "" ∧ Base64.decode (Text.trim text) = .ok bytes := by
  rw [unrecognizedPayload]
  split
  · next hblank => simp [String.isEmpty_iff.mp hblank]
  · next hblank => simp [mt String.isEmpty_iff.mpr hblank]

theorem unrecognizedPayload_failsOnly (text : String) :
    FailsOnly (· = .unrecognized) (unrecognizedPayload text) := by
  rw [unrecognizedPayload]
  split
  · exact .error rfl
  · exact .mapError fun _ => rfl

theorem unrecognizedPayload_eq_error_iff :
    unrecognizedPayload text = .error .unrecognized ↔
      Text.trim text = "" ∨ ¬∃ bytes, Base64.decode (Text.trim text) = .ok bytes := by
  rw [unrecognizedPayload]
  split
  · next hblank => simp [String.isEmpty_iff.mp hblank]
  · next hblank =>
    have hne : Text.trim text ≠ "" := mt String.isEmpty_iff.mpr hblank
    cases hdecode : Base64.decode (Text.trim text) with
    | ok bytes => simp [hne]
    | error cause => simp

/-- A text is called unrecognized before any provider gets it. -/
theorem decrypt_eq_unrecognized_iff (h : Template.parse? TemplateProvider.tag text = none) :
    ((ofTemplates default listed).decrypt text).outcome = .error .unrecognized ↔
      unrecognizedPayload text = .error .unrecognized := by
  rw [decrypt_of_noTemplate h, Traced.outcome_bind, Traced.outcome_ofExcept, Outcome.bind_eq_error]
  constructor
  · rintro (hpayload | ⟨bytes, -, hfailed⟩)
    · exact hpayload
    · exact absurd rfl (handOver_failsOnly default.2 bytes _ hfailed)
  · exact .inl

/-- If the default provider is the one that is asked first, both routes run alike on every text that
is a template or base64 of some bytes. -/
theorem decrypt_eq_decryptText
    (hfirst : (templateReader default listed).toProvider = default.2.toProvider)
    (h : ((ofTemplates default listed).decrypt text).outcome ≠ .error .unrecognized) :
    (ofTemplates default listed).decrypt text =
      (ofTemplates default listed).decryptText {} text := by
  rw [decryptText_eq]
  change _ = Traced.ofExcept (ciphertextOf default.2.toProvider text) >>= handOver _
  cases hparse : Template.parse? TemplateProvider.tag text with
  | some template =>
    rw [decrypt_of_template hparse, hfirst, ciphertextOf_of_template _ hparse]
    rfl
  | none =>
    cases hpayload : unrecognizedPayload text with
    | ok bytes =>
      have hdecode := (unrecognizedPayload_eq_ok_iff.mp hpayload).2
      rw [decrypt_of_noTemplate hparse, ciphertextOf_of_noTemplate _ hparse, hpayload, hdecode]
      rfl
    | error e =>
      obtain rfl := unrecognizedPayload_failsOnly text e hpayload
      exact absurd ((decrypt_eq_unrecognized_iff hparse).mpr hpayload) h

/-- Where the other route calls a text unrecognized, decryption with the default provider reads it
as base64 all the same: a text that is none is refused, and a blank one stands for no bytes. -/
theorem decryptText_of_noTemplate (default : Nat × TemplateProvider)
    (listed : List (Nat × TemplateProvider))
    (h : Template.parse? TemplateProvider.tag text = none) :
    ((¬∃ bytes, Base64.decode (Text.trim text) = .ok bytes) →
      (ofTemplates default listed).decryptText {} text =
        Traced.ofExcept (.error (.failure .notEncoded))) ∧
    (Text.trim text = "" →
      (ofTemplates default listed).decryptText {} text = handOver default.2.toProvider []) := by
  rw [decryptText_eq]
  change (_ → (Traced.ofExcept (ciphertextOf default.2.toProvider text) >>= handOver _) = _) ∧
    (_ → (Traced.ofExcept (ciphertextOf default.2.toProvider text) >>= handOver _) = _)
  rw [ciphertextOf_of_noTemplate _ h]
  constructor
  · intro hnone
    cases hdecode : Base64.decode (Text.trim text) with
    | ok bytes => exact absurd ⟨bytes, hdecode⟩ hnone
    | error cause => rfl
  · intro hblank
    have hdecode : Base64.decode (Text.trim text) = .ok [] := by
      rw [hblank]
      rfl
    rw [hdecode]
    rfl

/-- Over providers of templates a text is called unrecognized exactly if nothing is known of it and,
without white space around it, it is blank or no base64.  On every other text, a service that asks
its default provider first decrypts as that provider does without parameters: with the same
plaintext or error and the same log.  Of the texts that are called unrecognized the default provider
refuses those that are no base64 and decrypts blank ones as no bytes. -/
theorem decrypt_agrees_with_default (service : Service)
    (hservice : service = ofTemplates default listed) (text : String) :
    ((service.decrypt text).outcome = .error .unrecognized ↔
      service.metaInfo? text = none ∧
        (Text.trim text = "" ∨ ¬∃ bytes, Base64.decode (Text.trim text) = .ok bytes)) ∧
    (service.providers.head? = some service.default →
      (service.decrypt text).outcome ≠ .error .unrecognized →
      service.decrypt text = service.decryptText {} text) ∧
    ((service.decrypt text).outcome = .error .unrecognized →
      ((¬∃ bytes, Base64.decode (Text.trim text) = .ok bytes) →
        (service.decryptText {} text).outcome = .error (.failure .notEncoded)) ∧
      (Text.trim text = "" → service.decryptText {} text = handOver service.default [])) := by
  subst hservice
  have hunrecognized : ((ofTemplates default listed).decrypt text).outcome = .error .unrecognized ↔
      (ofTemplates default listed).metaInfo? text = none ∧
        (Text.trim text = "" ∨ ¬∃ bytes, Base64.decode (Text.trim text) = .ok bytes) := by
    rw [metaInfo?_ofTemplates]
    cases hparse : Template.parse? TemplateProvider.tag text with
    | some template =>
      rw [decrypt_of_template hparse]
      simpa using fun h => handOver_failsOnly _ _ _ h rfl
    | none =>
      rw [decrypt_eq_unrecognized_iff hparse, unrecognizedPayload_eq_error_iff]
      exact (and_iff_right rfl).symm
  refine ⟨hunrecognized, ?_, ?_⟩
  · intro hfirst
    rw [head?_providers_ofTemplates] at hfirst
    exact decrypt_eq_decryptText (Option.some.inj hfirst)
  · intro h
    have hparse : Template.parse? TemplateProvider.tag text = none := by
      have hnothing := (hunrecognized.mp h).1
      rwa [metaInfo?_ofTemplates, Option.map_eq_none_iff] at hnothing
    obtain ⟨hrefused, hblank⟩ := decryptText_of_noTemplate default listed hparse
    exact ⟨fun hnone => congrArg Traced.outcome (hrefused hnone), hblank⟩

/-- A service over one provider with a key and defaults. -/
def sampleService : Service :=
  ofTemplates (0, sampleProvider "main" ⟨some "AES", some "k", none⟩) []

/-- Base64 with white space around it, a text that is no base64, and a blank one. -/
theorem decrypt_agrees_with_default_hi :
    sampleService.decrypt " cvxsr0zGLRvHw9VJHVXPMg==\n" =
        sampleService.decryptText {} " cvxsr0zGLRvHw9VJHVXPMg==\n" ∧
      (sampleService.decryptText {} "no base64").outcome = .error (.failure .notEncoded) ∧
      sampleService.decryptText {} " \n" = handOver sampleService.default [] := by
  have hbytes : Base64.decode (Text.trim " cvxsr0zGLRvHw9VJHVXPMg==\n") =
      .ok [114, 252, 108, 175, 76, 198, 45, 27, 199, 195, 213, 73, 29, 85, 207, 50] := by
    rfl
  have hrefused : Base64.decode (Text.trim "no base64") = .error (.invalidSymbol 32 2) := by
    rfl
  have hnone : ¬∃ bytes, Base64.decode (Text.trim "no base64") = .ok bytes := by
    rw [hrefused]
    exact nofun
  obtain ⟨hencoded, hsame, -⟩ := decrypt_agrees_with_default sampleService rfl
    " cvxsr0zGLRvHw9VJHVXPMg==\n"
  obtain ⟨hunknown, -, hrest⟩ := decrypt_agrees_with_default sampleService rfl "no base64"
  obtain ⟨hempty, -, hblank⟩ := decrypt_agrees_with_default sampleService rfl " \n"
  refine ⟨?_, ?_, ?_⟩
  · apply hsame rfl
    rw [ne_eq, hencoded, hbytes]
    rintro ⟨-, hblank | hnone⟩
    · exact absurd hblank (by decide)
    · exact hnone ⟨_, rfl⟩
  · exact (hrest (hunknown.mpr ⟨by decide, .inr hnone⟩)).1 hnone
  · exact (hblank (hempty.mpr ⟨by decide, .inl (by decide)⟩)).2 (by decide)

end Service

end CipherVault
