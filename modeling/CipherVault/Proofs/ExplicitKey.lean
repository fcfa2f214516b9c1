import CipherVault.Proofs.DecryptionFailure
import CipherVault.Proofs.Provider
/-!
# A key that is set shuts out every other one

Under a key on the request, resolution is left with the algorithm.  So a run is the same over every
keystore and under every alias, be it set, embedded or configured, and no search for a key shows in
its errors or in its log.
-/

namespace CipherVault

open Outcome (FailsOnly)

/-- The errors of transforms: of parameters that do not fit and of data. -/
def CipherError.IsOfTransform : CipherError → Prop
  | illegal _ | failure _ => True
  | _ => False

/-- The errors of a search for a key: no key under an alias, or no alias to look under. -/
def CipherError.IsOfSearch : CipherError → Prop
  | keyNotFound _ | missingDefault .keyAlias => True
  | _ => False

theorem CipherError.not_isOfSearch (e : CipherError) (h : e.IsOfTransform) : ¬e.IsOfSearch := by
  cases e with
  | illegal fault => exact id
  | failure fault => exact id
  | _ => exact False.elim h

/-- The warnings that a key is deprecated. -/
def LogEvent.IsOfDeprecation : LogEvent → Prop
  | deprecatedKeyUsed .. => True
  | _ => False

/-- Neither the outcome nor the log of a run tells of a search for a key. -/
structure SearchesNoKey {α : Type} (run : Traced CipherError α) : Prop where
  fails : FailsOnly (¬·.IsOfSearch) run.outcome
  reports : run.ReportsOnly (¬·.IsOfDeprecation)

namespace SearchesNoKey

variable {α β : Type}

theorem ofExcept {x : Except CipherError α} (h : FailsOnly (¬·.IsOfSearch) x) :
    SearchesNoKey (Traced.ofExcept x) where
  fails := h
  reports := .ofExcept x

theorem ofTransform {x : Except CipherError α} (h : FailsOnly (·.IsOfTransform) x) :
    SearchesNoKey (Traced.ofExcept x) :=
  ofExcept (h.imp CipherError.not_isOfSearch)

theorem pure (a : α) : SearchesNoKey (Pure.pure a : Traced CipherError α) where
  fails := .ok a
  reports := .pure a

theorem reportAll_nil : SearchesNoKey (Traced.reportAll [] : Traced CipherError Unit) where
  fails := .ok ()
  reports := .reportAll nofun

theorem reportFailure {x : Except CipherError α} {event : CipherError → LogEvent}
    (h : FailsOnly (·.IsOfTransform) x) (hevent : ∀ e, ¬(event e).IsOfDeprecation) :
    SearchesNoKey (Traced.reportFailure x event) where
  fails := by
    rw [Traced.outcome_reportFailure]
    exact h.imp CipherError.not_isOfSearch
  reports := .reportFailure hevent

theorem bind {x : Traced CipherError α} {f : α → Traced CipherError β} (hx : SearchesNoKey x)
    (hf : ∀ a, x.outcome = .ok a → SearchesNoKey (f a)) : SearchesNoKey (x >>= f) where
  fails := by
    rw [Traced.outcome_bind]
    exact hx.fails.bind fun a h => (hf a h).fails
  reports := hx.reports.bind fun a h => (hf a h).reports

end SearchesNoKey

/-! ## Errors of transforms -/

namespace Transform

variable {transform : Transform} {key : KeyMaterial}

theorem parse_failsOnly (name : String) : FailsOnly (·.IsOfTransform) (parse name) := by
  rw [parse]
  split
  · exact .ok _
  · exact .error trivial

theorem prepareIv_failsOnly (entropy : Entropy) (pinned : Option Bytes) :
    FailsOnly (·.IsOfTransform) (transform.prepareIv entropy pinned) := by
  unfold prepareIv
  split
  · split
    · exact .error trivial
    · split
      · exact .ok _
      · exact .error trivial
  · split
    · exact .ok _
    · exact .ok _

theorem secretKey_failsOnly : FailsOnly (·.IsOfTransform) (transform.secretKey key) := by
  rw [secretKey]
  split
  · exact .ok _
  · exact .error trivial

theorem aesSchedule_failsOnly : FailsOnly (·.IsOfTransform) (transform.aesSchedule key) := by
  apply secretKey_failsOnly.bind
  intro secret _
  split
  · exact .ok _
  · exact .error trivial

theorem chaChaKey_failsOnly : FailsOnly (·.IsOfTransform) (transform.chaChaKey key) := by
  apply secretKey_failsOnly.bind
  intro secret _
  split
  · exact .ok _
  · exact .error trivial

theorem ofModeError_isOfTransform (length : Nat) (e : Aes.ModeError) :
    (ofModeError length e).IsOfTransform := by
  cases e <;> exact trivial

theorem ofAeadError_isOfTransform (e : AeadError) : (ofAeadError e).IsOfTransform := by
  cases e <;> exact trivial

theorem ofRsaError_isOfTransform (e : Rsa.BlockError) : (ofRsaError e).IsOfTransform := by
  cases e <;> exact trivial

theorem limited_failsOnly {limit length : Nat} {fault : CryptoFault}
    {outcome : Except CipherError Bytes} (h : FailsOnly (·.IsOfTransform) outcome) :
    FailsOnly (·.IsOfTransform) (limited limit length fault outcome) := by
  rw [limited]
  split
  · exact h
  · exact .error trivial

theorem encryptWith_failsOnly (entropy : Entropy) (iv data : Bytes) :
    FailsOnly (·.IsOfTransform) (transform.encryptWith key entropy iv data) := by
  cases transform with
  | aes mode padding =>
    apply aesSchedule_failsOnly.bind
    intro schedule _
    exact .mapError (ofModeError_isOfTransform _)
  | aesGcm =>
    apply aesSchedule_failsOnly.bind
    intro schedule _
    exact limited_failsOnly (.mapError ofAeadError_isOfTransform)
  | chaCha20Poly1305 =>
    apply chaChaKey_failsOnly.bind
    intro secret _
    exact limited_failsOnly (.mapError ofAeadError_isOfTransform)
  | rsa padding =>
    rw [encryptWith]
    split
    · exact .error trivial
    · exact .mapError ofRsaError_isOfTransform

theorem encrypt_failsOnly (entropy : Entropy) (pinned : Option Bytes) (data : Bytes) :
    FailsOnly (·.IsOfTransform) (transform.encrypt key entropy pinned data) := by
  apply (prepareIv_failsOnly entropy pinned).bind
  intro iv _
  apply (encryptWith_failsOnly entropy _ data).bind
  intro ciphertext _
  exact .ok _

theorem decrypt_failsOnly (payload : Bytes) :
    FailsOnly (·.IsOfTransform) (transform.decrypt key payload) := by
  intro e h
  rw [error_of_decrypt h, decryptionError]
  split
  · exact trivial
  · split
    · exact trivial
    · exact trivial

end Transform

/-! ## Resolution -/

namespace Resolved

variable {store : KeyStore} {defaults : Defaults} {parameters : Parameters}
  {embedded : Option MetaInfo} {key : KeyMaterial}

/-- Under a key that is set only the algorithm is left to resolve. -/
theorem resolve_of_key (hkey : parameters.key = some key) :
    resolve store defaults parameters embedded =
      match chooseAlgorithm parameters embedded defaults with
      | none => .error (.missingDefault .algorithm)
      | some algorithm => .ok ⟨algorithm, ⟨key, .explicit⟩⟩ := by
  rw [resolve, chooseKey_eq, hkey]
  rfl

theorem source_of_resolve {resolved : Resolved} (hkey : parameters.key = some key)
    (h : resolve store defaults parameters embedded = .ok resolved) :
    resolved.key.source = .explicit := by
  rw [resolve_of_key hkey] at h
  split at h
  · cases h
  · cases h
    rfl

theorem resolve_failsOnly (hkey : parameters.key = some key) :
    FailsOnly (¬·.IsOfSearch) (resolve store defaults parameters embedded) := by
  rw [resolve_of_key hkey]
  split
  · exact .error id
  · exact .ok _

end Resolved

/-! ## Runs of the provider -/

namespace TemplateProvider

variable {provider other : TemplateProvider} {parameters : Parameters} {key : KeyMaterial}

/-- Of a provider, resolution under a key that is set takes the default algorithm only. -/
theorem resolve_eq_of_key (hdefaults : provider.defaults.algorithm = other.defaults.algorithm)
    (hkey : parameters.key = some key) (keyAlias : Option String)
    {embedded changed : Option MetaInfo}
    (hembedded : embedded.map (·.algorithm) = changed.map (·.algorithm)) :
    provider.resolve parameters embedded = other.resolve { parameters with keyAlias } changed := by
  have hchoose : Resolved.chooseAlgorithm parameters embedded provider.defaults =
      Resolved.chooseAlgorithm { parameters with keyAlias } changed other.defaults := by
    rw [Resolved.chooseAlgorithm_eq, Resolved.chooseAlgorithm_eq, hembedded, hdefaults]
  have hsame : ({ parameters with keyAlias } : Parameters).key = some key := hkey
  rw [resolve, resolve, Resolved.resolve_of_key hkey, Resolved.resolve_of_key hsame, hchoose]

theorem payload_failsOnly (ciphertext : Bytes) (template : Option Template) :
    FailsOnly (·.IsOfTransform) (payload ciphertext template) := by
  cases template with
  | none => exact .ok _
  | some template => exact .mapError fun _ => trivial

theorem encrypt_searchesNoKey (entropy : Entropy) (plaintext : Bytes)
    (hkey : parameters.key = some key) :
    SearchesNoKey (provider.encrypt entropy ⟨plaintext, parameters⟩) := by
  rw [encrypt]
  apply (SearchesNoKey.ofExcept (Resolved.resolve_failsOnly hkey)).bind
  intro resolved hresolved
  apply (SearchesNoKey.ofTransform (Transform.parse_failsOnly _)).bind
  intro transform _
  -- A key that is set is of no keystore, so there is none to call deprecated.
  have hquiet : deprecationEvents resolved = [] := by
    rw [deprecationEvents, Resolved.source_of_resolve hkey hresolved]
  rw [hquiet]
  apply SearchesNoKey.reportAll_nil.bind
  intro _ _
  apply (SearchesNoKey.reportFailure (Transform.encrypt_failsOnly _ _ _) fun _ => id).bind
  intro data _
  exact .pure _

theorem decrypt_searchesNoKey (ciphertext : Bytes) (hkey : parameters.key = some key) :
    SearchesNoKey (provider.decrypt ⟨ciphertext, parameters⟩) := by
  rw [decrypt]
  apply (SearchesNoKey.ofExcept (Resolved.resolve_failsOnly hkey)).bind
  intro resolved _
  apply (SearchesNoKey.ofTransform (Transform.parse_failsOnly _)).bind
  intro transform _
  apply (SearchesNoKey.ofTransform (payload_failsOnly _ _)).bind
  intro payload _
  apply (SearchesNoKey.reportFailure (Transform.decrypt_failsOnly _) fun _ => id).bind
  intro plaintext _
  exact .pure _

theorem keyAlias_of_encrypt {entropy : Entropy} {plaintext : Bytes} {result : EncryptResult}
    (hkey : parameters.key = some key)
    (h : (provider.encrypt entropy ⟨plaintext, parameters⟩).outcome = .ok result) :
    result.keyAlias = none := by
  obtain ⟨resolved, transform, data, hresolved, htransform, hdata, rfl⟩ := encrypt_eq_ok_iff.mp h
  rw [ResolvedKey.keyAlias?, Resolved.source_of_resolve hkey hresolved]

/-- Under a key that is set, two providers with one default algorithm and any keystores and default
aliases run alike, whatever alias the request sets and whatever alias a template embeds: with the
same bytes or error and the same events.  A result names no alias and gives no template. -/
theorem explicit_key_decides_alone (provider other : TemplateProvider) (parameters : Parameters)
    (hdefaults : provider.defaults.algorithm = other.defaults.algorithm)
    (hkey : parameters.key = some key) (keyAlias : Option String) :
    (∀ entropy plaintext,
      provider.encrypt entropy ⟨plaintext, parameters⟩ =
        other.encrypt entropy ⟨plaintext, { parameters with keyAlias }⟩ ∧
      SearchesNoKey (provider.encrypt entropy ⟨plaintext, parameters⟩) ∧
      ∀ result, (provider.encrypt entropy ⟨plaintext, parameters⟩).outcome = .ok result →
        result.keyAlias = none ∧ result.template = .error .templateWithoutAlias) ∧
    (∀ ciphertext,
      provider.decrypt ⟨ciphertext, parameters⟩ =
        other.decrypt ⟨ciphertext, { parameters with keyAlias }⟩ ∧
      SearchesNoKey (provider.decrypt ⟨ciphertext, parameters⟩)) ∧
    ∀ text changed algorithm embedded embedded' payload,
      Template.parse? tag text = some ⟨algorithm, embedded, payload⟩ →
      Template.parse? tag changed = some ⟨algorithm, embedded', payload⟩ →
      provider.decrypt ⟨Utf8.encode text, parameters⟩ =
        other.decrypt ⟨Utf8.encode changed, { parameters with keyAlias }⟩ := by
  refine ⟨?_, ?_, ?_⟩
  · intro entropy plaintext
    refine ⟨?_, encrypt_searchesNoKey entropy plaintext hkey, ?_⟩
    · have hresolve : provider.resolve parameters none =
          other.resolve { parameters with keyAlias } none :=
        resolve_eq_of_key hdefaults hkey keyAlias rfl
      simp only [encrypt, hresolve]
    · intro result hresult
      have halias := keyAlias_of_encrypt hkey hresult
      refine ⟨halias, ?_⟩
      rw [EncryptResult.template, halias]
  · intro ciphertext
    refine ⟨?_, decrypt_searchesNoKey ciphertext hkey⟩
    have hresolve : ∀ embedded, provider.resolve parameters embedded =
        other.resolve { parameters with keyAlias } embedded :=
      fun _ => resolve_eq_of_key hdefaults hkey keyAlias rfl
    simp only [decrypt, hresolve]
  · intro text changed algorithm embedded embedded' payload htext hchanged
    have hresolve : provider.resolve parameters (some ⟨algorithm, embedded⟩) =
        other.resolve { parameters with keyAlias } (some ⟨algorithm, embedded'⟩) :=
      resolve_eq_of_key hdefaults hkey keyAlias rfl
    simp only [decrypt, template?_encode, htext, hchanged, Option.map_some, Template.metaInfo,
      hresolve]
    rfl

/-- A provider whose default alias names a deprecated key. -/
def deprecatedProvider : TemplateProvider :=
  ⟨.ofKeys ((StaticStore.empty "main").insert "k" (.ofSecret (List.replicate 16 8)) (some true)),
    ⟨some "aes", some "k", none⟩⟩

/-- A provider without any key. -/
def keylessProvider : TemplateProvider :=
  ⟨.ofKeys (StaticStore.empty "backup"), ⟨some "aes", none, none⟩⟩

/-- A key that is set, with or without an alias beside it. -/
def explicitParameters (keyAlias : Option String) : Parameters :=
  { key := some (.ofSecret (List.replicate 16 7)), keyAlias }

/-- Two bytes under a key that neither provider holds, and templates of them that differ in the
alias. -/
theorem explicit_key_decides_alone_two_bytes :
    deprecatedProvider.encrypt ⟨fun _ => 0, fun _ => ⟨1, by decide⟩⟩
        ⟨[104, 105], explicitParameters (some "k")⟩ =
      keylessProvider.encrypt ⟨fun _ => 0, fun _ => ⟨1, by decide⟩⟩
        ⟨[104, 105], explicitParameters none⟩ ∧
    (∃ result, (deprecatedProvider.encrypt ⟨fun _ => 0, fun _ => ⟨1, by decide⟩⟩
        ⟨[104, 105], explicitParameters (some "k")⟩).outcome = .ok result ∧
      result.template = .error .templateWithoutAlias) ∧
    deprecatedProvider.decrypt ⟨Utf8.encode "{v2c}{aes}{k}{cvxsr0zGLRvHw9VJHVXPMg==}",
        explicitParameters (some "k")⟩ =
      keylessProvider.decrypt ⟨Utf8.encode "{v2c}{aes}{gone}{cvxsr0zGLRvHw9VJHVXPMg==}",
        explicitParameters none⟩ := by
  have hresult : (deprecatedProvider.encrypt ⟨fun _ => 0, fun _ => ⟨1, by decide⟩⟩
        ⟨[104, 105], explicitParameters (some "k")⟩).outcome.toOption =
      some ⟨⟨none, [114, 252, 108, 175, 76, 198, 45, 27, 199, 195, 213, 73, 29, 85, 207, 50]⟩,
        "aes", none, "v2c"⟩ := by
    decide +kernel
  have htext : Template.parse? tag "{v2c}{aes}{k}{cvxsr0zGLRvHw9VJHVXPMg==}" =
      some ⟨"aes", "k", "cvxsr0zGLRvHw9VJHVXPMg=="⟩ := by decide +kernel
  have hchanged : Template.parse? tag "{v2c}{aes}{gone}{cvxsr0zGLRvHw9VJHVXPMg==}" =
      some ⟨"aes", "gone", "cvxsr0zGLRvHw9VJHVXPMg=="⟩ := by decide +kernel
  have hencrypted := Outcome.toOption_eq_some.mp hresult
  obtain ⟨hencrypt, -, hdecrypt⟩ := explicit_key_decides_alone deprecatedProvider keylessProvider
    (explicitParameters (some "k")) rfl rfl none
  obtain ⟨hsame, -, htemplate⟩ := hencrypt ⟨fun _ => 0, fun _ => ⟨1, by decide⟩⟩ [104, 105]
  refine ⟨hsame, ⟨_, hencrypted, (htemplate _ hencrypted).2⟩, ?_⟩
  exact hdecrypt _ _ _ _ _ _ htext hchanged

end TemplateProvider

end CipherVault
