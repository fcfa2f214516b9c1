import CipherVault.Proofs.Dispatch
import CipherVault.Proofs.EncryptionRefusal
import CipherVault.Proofs.Keystore.AliasMap
import CipherVault.Proofs.Rsa.Chunks
import CipherVault.Proofs.TwoRuns
/-!
# Logs and errors carry no secret bytes

Inputs are alike if they differ in bytes of secret keys and of plaintexts only, and in no length.
Encryption of alike inputs gives alike runs: the same events, and results of the same lengths or the
same error.  Decryption of alike inputs tells whether it succeeded, and nothing beyond that.
-/

namespace CipherVault

/-! ## Inputs that are alike -/

/-- Keys that differ at most in the bytes of a secret. -/
inductive KeyMaterial.Alike : KeyMaterial → KeyMaterial → Prop
  | secret {left right : SecretKey} (h : left.length = right.length) :
    Alike (.secret left) (.secret right)
  | rsaPrivate (key : Rsa.PrivateKey) : Alike (.rsaPrivate key) (.rsaPrivate key)
  | rsaPublic (key : Rsa.PublicKey) : Alike (.rsaPublic key) (.rsaPublic key)

structure AliasedKey.Alike (left right : AliasedKey) : Prop where
  material : left.material.Alike right.material
  keyAlias : left.keyAlias = right.keyAlias
  deprecated : left.deprecated = right.deprecated

/-- Keystores that find alike keys under every alias, or none in both. -/
def KeyStore.Alike (left right : KeyStore) : Prop :=
  ∀ keyAlias, Option.Rel AliasedKey.Alike (left.find? keyAlias) (right.find? keyAlias)

/-- Parameters that differ at most in the bytes of an explicit secret key. -/
structure Parameters.Alike (left right : Parameters) : Prop where
  algorithm : left.algorithm = right.algorithm
  key : Option.Rel KeyMaterial.Alike left.key right.key
  keyAlias : left.keyAlias = right.keyAlias
  provider : left.provider = right.provider
  iv : left.iv = right.iv

structure EncryptionRequest.Alike (left right : EncryptionRequest) : Prop where
  plaintext : left.plaintext.length = right.plaintext.length
  parameters : left.parameters.Alike right.parameters

structure DecryptionRequest.Alike (left right : DecryptionRequest) : Prop where
  ciphertext : left.ciphertext.length = right.ciphertext.length
  parameters : left.parameters.Alike right.parameters

structure TemplateProvider.Alike (left right : TemplateProvider) : Prop where
  keystore : left.keystore.Alike right.keystore
  defaults : left.defaults = right.defaults

inductive Provider.Alike : Provider → Provider → Prop
  | templates {left right : TemplateProvider} (h : left.Alike right) :
    Alike left.toProvider right.toProvider

theorem Provider.Alike.name_eq {left right : Provider} (h : left.Alike right) :
    left.name = right.name := by
  obtain ⟨_⟩ := h
  rfl

/-- Services over providers of templates that are alike one by one. -/
structure Service.Alike (left right : Service) : Prop where
  default : left.default.Alike right.default
  providers : List.Forall₂ Provider.Alike left.providers right.providers

/-! ## Results that are alike -/

def Bytes.SameLength (left right : Bytes) : Prop :=
  left.length = right.length

/-- Vectors and ciphertexts of the same lengths. -/
structure EncryptedData.Alike (left right : EncryptedData) : Prop where
  iv : left.iv.map List.length = right.iv.map List.length
  ciphertext : left.ciphertext.length = right.ciphertext.length

structure EncryptResult.Alike (left right : EncryptResult) : Prop where
  data : left.data.Alike right.data
  algorithm : left.algorithm = right.algorithm
  keyAlias : left.keyAlias = right.keyAlias
  tag : left.tag = right.tag

structure ResolvedKey.Alike (left right : ResolvedKey) : Prop where
  material : left.material.Alike right.material
  source : left.source = right.source

structure Resolved.Alike (left right : Resolved) : Prop where
  algorithm : left.algorithm = right.algorithm
  key : left.key.Alike right.key

theorem KeyMaterial.Alike.shape_eq {left right : KeyMaterial} (h : left.Alike right) :
    left.shape = right.shape := by
  cases h with
  | secret h => exact congrArg KeyShape.secret h
  | rsaPrivate key => rfl
  | rsaPublic key => rfl

/-! ## Ciphers -/

/-- Under one key the length of an RSA ciphertext depends on the length of the data only. -/
theorem Rsa.PublicKey.encrypt_alike (key : PublicKey) (padding : Padding)
    (entropy entropy' : Entropy) {data data' : Bytes} (h : data.length = data'.length) :
    Outcome.Alike Bytes.SameLength (key.encrypt padding entropy data)
      (key.encrypt padding entropy' data') := by
  by_cases hsize : key.size ≤ padding.overhead
  · rw [encrypt_of_small hsize, encrypt_of_small hsize]
    exact .error _
  have hroom : padding.overhead < key.size := Nat.not_le.mp hsize
  have hchunk : 0 < key.size - padding.overhead := Nat.sub_pos_of_lt hroom
  cases hfault : key.fault? with
  | some fault =>
    rw [encrypt_of_fault hroom hfault, encrypt_of_fault hroom hfault]
    exact .error _
  | none =>
    have hvalid := fault?_eq_none_iff.mp hfault
    rw [encrypt_of_isValid hroom hvalid, encrypt_of_isValid hroom hvalid]
    apply Outcome.Alike.ok
    rw [Bytes.SameLength, length_encryptChunks, length_encryptChunks, length_chunksOf hchunk,
      length_chunksOf hchunk, h]

namespace Transform

variable {transform : Transform} {left right : KeyMaterial} {plain plain' : Bytes}

/-- A pinned vector is the same in both runs, and drawn ones have one length. -/
theorem prepareIv_alike (transform : Transform) (entropy entropy' : Entropy)
    (pinned : Option Bytes) :
    Outcome.Alike (fun iv iv' => iv.map List.length = iv'.map List.length ∧
        (iv.getD []).length = transform.ivLength ∧ (iv'.getD []).length = transform.ivLength)
      (transform.prepareIv entropy pinned) (transform.prepareIv entropy' pinned) := by
  cases pinned with
  | some iv =>
    change Outcome.Alike _ (transform.prepareIv entropy (some iv))
      (transform.prepareIv entropy (some iv))
    cases hiv : transform.prepareIv entropy (some iv) with
    | ok prepared => exact .ok ⟨rfl, prepareIv_eq_ok hiv, prepareIv_eq_ok hiv⟩
    | error e => exact .error e
  | none =>
    rw [prepareIv, prepareIv]
    by_cases hzero : transform.ivLength = 0
    · rw [if_pos hzero, if_pos hzero]
      exact .ok ⟨rfl, hzero.symm, hzero.symm⟩
    · rw [if_neg hzero, if_neg hzero]
      apply Outcome.Alike.ok
      simp

/-- Behind their vectors, alike inputs have ciphertexts of one length or are refused with one
error. -/
theorem encryptWith_alike (hkey : left.Alike right) (hplain : plain.length = plain'.length)
    (entropy entropy' : Entropy) {iv iv' : Bytes} (hiv : iv.length = transform.ivLength)
    (hiv' : iv'.length = transform.ivLength) :
    Outcome.Alike Bytes.SameLength (transform.encryptWith left entropy iv plain)
      (transform.encryptWith right entropy' iv' plain') := by
  cases hsymmetric : transform.isSymmetric with
  | true =>
    have hsame : transform.encryptionError? left.shape plain.length =
        transform.encryptionError? right.shape plain'.length := by
      rw [hkey.shape_eq, hplain]
    cases herror : transform.encryptionError? right.shape plain'.length with
    | some e =>
      rw [encryptWith_of_encryptionError? hsymmetric herror,
        encryptWith_of_encryptionError? hsymmetric (hsame.trans herror)]
      exact .error e
    | none =>
      obtain ⟨data, hdata, hlength⟩ :=
        exists_encryptWith_of_encryptionError? hsymmetric hiv (hsame.trans herror)
      obtain ⟨data', hdata', hlength'⟩ :=
        exists_encryptWith_of_encryptionError? hsymmetric hiv' herror
      rw [hdata, hdata']
      rw [hplain, hlength'] at hlength
      exact .ok (Option.some.inj hlength).symm
  | false =>
    cases transform with
    | rsa padding =>
      cases hkey with
      | secret h => exact .error _
      | rsaPrivate key =>
        exact (Rsa.PublicKey.encrypt_alike _ padding entropy entropy' hplain).mapError _
      | rsaPublic key =>
        exact (Rsa.PublicKey.encrypt_alike _ padding entropy entropy' hplain).mapError _
    | aes mode padding => cases hsymmetric
    | aesGcm => cases hsymmetric
    | chaCha20Poly1305 => cases hsymmetric

theorem encrypt_alike (transform : Transform) (hkey : left.Alike right)
    (hplain : plain.length = plain'.length) (entropy entropy' : Entropy) (pinned : Option Bytes) :
    Outcome.Alike EncryptedData.Alike (transform.encrypt left entropy pinned plain)
      (transform.encrypt right entropy' pinned plain') := by
  apply (prepareIv_alike transform entropy entropy' pinned).bind
  rintro iv iv' ⟨hlengths, hiv, hiv'⟩
  apply (encryptWith_alike hkey hplain entropy entropy' hiv hiv').bind
  intro ciphertext ciphertext' hciphertext
  exact .ok ⟨hlengths, hciphertext⟩

end Transform

/-! ## Resolution -/

namespace Resolved

variable {left right : KeyStore} {parameters parameters' : Parameters}

theorem lookUp_alike (h : left.Alike right) (keyAlias : String) :
    Outcome.Alike ResolvedKey.Alike (lookUp left keyAlias) (lookUp right keyAlias) := by
  have hfound := h keyAlias
  rw [lookUp, lookUp]
  generalize left.find? keyAlias = found at hfound ⊢
  generalize right.find? keyAlias = found' at hfound ⊢
  cases hfound with
  | some h => exact .ok ⟨h.material, by rw [h.keyAlias, h.deprecated]⟩
  | none => exact .error _

theorem chooseKey_alike (hstore : left.Alike right) (h : parameters.Alike parameters')
    (embedded : Option MetaInfo) (defaults : Defaults) :
    Outcome.Alike ResolvedKey.Alike (chooseKey left parameters embedded defaults)
      (chooseKey right parameters' embedded defaults) := by
  have halias : chooseAlias parameters embedded defaults =
      chooseAlias parameters' embedded defaults := by
    rw [chooseAlias, chooseAlias, h.keyAlias]
  have hkey := h.key
  rw [chooseKey_eq, chooseKey_eq, storedKey, storedKey, halias]
  generalize parameters.key = key at hkey ⊢
  generalize parameters'.key = key' at hkey ⊢
  cases hkey with
  | some hmaterial => exact .ok ⟨hmaterial, rfl⟩
  | none =>
    cases chooseAlias parameters' embedded defaults with
    | some keyAlias => exact lookUp_alike hstore keyAlias
    | none => exact .error _

theorem resolve_alike (hstore : left.Alike right) (h : parameters.Alike parameters')
    (defaults : Defaults) (embedded : Option MetaInfo) :
    Outcome.Alike Resolved.Alike (resolve left defaults parameters embedded)
      (resolve right defaults parameters' embedded) := by
  have halgorithm : chooseAlgorithm parameters embedded defaults =
      chooseAlgorithm parameters' embedded defaults := by
    rw [chooseAlgorithm_eq, chooseAlgorithm_eq, h.algorithm]
  rw [resolve, resolve, halgorithm]
  cases chooseAlgorithm parameters' embedded defaults with
  | some algorithm =>
    exact (chooseKey_alike hstore h embedded defaults).map fun _ _ hkey => ⟨rfl, hkey⟩
  | none => exact .error _

end Resolved

/-! ## Runs of the provider -/

namespace TemplateProvider

variable {left right : TemplateProvider}

theorem resolve_alike (h : left.Alike right) {parameters parameters' : Parameters}
    (hparameters : parameters.Alike parameters') (embedded : Option MetaInfo) :
    Outcome.Alike Resolved.Alike (left.resolve parameters embedded)
      (right.resolve parameters' embedded) := by
  rw [resolve, resolve, h.defaults]
  exact Resolved.resolve_alike h.keystore hparameters right.defaults embedded

theorem deprecationEvents_eq {resolved resolved' : Resolved} (h : resolved.Alike resolved') :
    deprecationEvents resolved = deprecationEvents resolved' := by
  rw [deprecationEvents, deprecationEvents, h.key.source, h.algorithm]

theorem encrypt_alike (h : left.Alike right) {request request' : EncryptionRequest}
    (hrequest : request.Alike request') (entropy entropy' : Entropy) :
    Traced.Alike EncryptResult.Alike (left.encrypt entropy request)
      (right.encrypt entropy' request') := by
  rw [encrypt, encrypt]
  apply (Traced.Alike.ofExcept (resolve_alike h hrequest.parameters none)).bind
  intro resolved resolved' hresolved
  rw [hresolved.algorithm]
  apply (Traced.Alike.ofExcept (.of_eq rfl)).bind
  rintro transform _ rfl
  apply (Traced.Alike.reportAll (deprecationEvents_eq hresolved)).bind
  intro _ _ _
  rw [hrequest.parameters.iv]
  apply (Traced.Alike.reportFailure (Transform.encrypt_alike transform hresolved.key.material
    hrequest.plaintext entropy entropy' _) _).bind
  intro data data' hdata
  apply Traced.Alike.pure
  have halias : resolved.key.keyAlias? = resolved'.key.keyAlias? := by
    rw [ResolvedKey.keyAlias?, ResolvedKey.keyAlias?, hresolved.key.source]
  exact ⟨hdata, rfl, halias, rfl⟩

/-- Raw payloads of one length are decrypted alike, but for the verdict. -/
theorem decrypt_alikeByVerdict (h : left.Alike right) {request request' : DecryptionRequest}
    (hrequest : request.Alike request') (hraw : template? request.ciphertext = none)
    (hraw' : template? request'.ciphertext = none) :
    Traced.AlikeByVerdict (left.decrypt request) (right.decrypt request') := by
  rw [decrypt, decrypt, hraw, hraw']
  apply Traced.AlikeByVerdict.bind
    (Traced.Alike.ofExcept (resolve_alike h hrequest.parameters none))
  intro resolved resolved' hresolved
  rw [hresolved.algorithm]
  apply Traced.AlikeByVerdict.bind (Traced.Alike.ofExcept (.of_eq rfl))
  rintro transform _ rfl
  have hpayload : Outcome.Alike Bytes.SameLength (payload request.ciphertext none)
      (payload request'.ciphertext none) := .ok hrequest.ciphertext
  apply Traced.AlikeByVerdict.bind (Traced.Alike.ofExcept hpayload)
  intro payload payload' hlength
  apply Traced.AlikeByVerdict.andReturn
  apply Traced.AlikeByVerdict.reportFailure
  intro e e' he he'
  rw [Bytes.SameLength] at hlength
  rw [Transform.error_of_decrypt he, Transform.error_of_decrypt he', hlength,
    hresolved.key.material.shape_eq]

end TemplateProvider

/-! ## Runs of the service -/

namespace Service

variable {left right : Service}

theorem find?_alike {providers providers' : List Provider}
    (h : List.Forall₂ Provider.Alike providers providers') (name : String) :
    Option.Rel Provider.Alike (providers.find? (·.name = name))
      (providers'.find? (·.name = name)) := by
  induction h with
  | nil => exact .none
  | cons hprovider _ ih =>
    rw [List.find?_cons, List.find?_cons, hprovider.name_eq]
    split
    · exact .some hprovider
    · exact ih

theorem select_alike (h : left.Alike right) (name : Option String) :
    Outcome.Alike Provider.Alike (left.select name) (right.select name) := by
  cases name with
  | none => exact .ok h.default
  | some name =>
    have hfound := find?_alike h.providers name
    rw [select, select]
    generalize left.providers.find? (·.name = name) = found at hfound ⊢
    generalize right.providers.find? (·.name = name) = found' at hfound ⊢
    cases hfound with
    | some hprovider => exact .ok hprovider
    | none => exact .error _

theorem encryptBytes_alike (h : left.Alike right) {parameters parameters' : Parameters}
    (hparameters : parameters.Alike parameters') {data data' : Bytes}
    (hdata : data.length = data'.length) (entropy entropy' : Entropy) :
    Traced.Alike EncryptResult.Alike (left.encryptBytes parameters entropy data)
      (right.encryptBytes parameters' entropy' data') := by
  rw [encryptBytes, encryptBytes, hparameters.provider]
  apply (Traced.Alike.ofExcept (select_alike h parameters'.provider)).bind
  intro provider provider' hprovider
  rw [hprovider.name_eq]
  apply (Traced.Alike.report (.dispatched "encrypt" provider'.name)).bind
  intro _ _ _
  obtain ⟨hprovider⟩ := hprovider
  exact TemplateProvider.encrypt_alike hprovider ⟨hdata, hparameters⟩ entropy entropy'

theorem decryptBytes_alikeByVerdict (h : left.Alike right) {parameters parameters' : Parameters}
    (hparameters : parameters.Alike parameters') {data data' : Bytes}
    (hdata : data.length = data'.length) (hraw : TemplateProvider.template? data = none)
    (hraw' : TemplateProvider.template? data' = none) :
    Traced.AlikeByVerdict (left.decryptBytes parameters data)
      (right.decryptBytes parameters' data') := by
  rw [decryptBytes, decryptBytes, hparameters.provider]
  apply Traced.AlikeByVerdict.bind (Traced.Alike.ofExcept (select_alike h parameters'.provider))
  intro provider provider' hprovider
  rw [hprovider.name_eq]
  apply Traced.AlikeByVerdict.bind (Traced.Alike.report (.dispatched "decrypt" provider'.name))
  intro _ _ _
  obtain ⟨hprovider⟩ := hprovider
  exact TemplateProvider.decrypt_alikeByVerdict hprovider ⟨hdata, hparameters⟩ hraw hraw'

/-- Neither the events nor an error tell the bytes of a secret key or of a plaintext.  Requests to a
provider report the events of its own, requests to a service also the choice of the provider. -/
theorem runs_report_no_secret :
    (∀ left right : TemplateProvider, left.Alike right →
      (∀ request request' : EncryptionRequest, request.Alike request' →
        ∀ entropy entropy', Traced.Alike EncryptResult.Alike (left.encrypt entropy request)
          (right.encrypt entropy' request')) ∧
      ∀ request request' : DecryptionRequest, request.Alike request' →
        TemplateProvider.template? request.ciphertext = none →
        TemplateProvider.template? request'.ciphertext = none →
        Traced.AlikeByVerdict (left.decrypt request) (right.decrypt request')) ∧
    ∀ left right : Service, left.Alike right →
      ∀ parameters parameters' : Parameters, parameters.Alike parameters' →
        ∀ data data' : Bytes, data.length = data'.length →
          (∀ entropy entropy', Traced.Alike EncryptResult.Alike
            (left.encryptBytes parameters entropy data)
            (right.encryptBytes parameters' entropy' data')) ∧
          (TemplateProvider.template? data = none → TemplateProvider.template? data' = none →
            Traced.AlikeByVerdict (left.decryptBytes parameters data)
              (right.decryptBytes parameters' data')) := by
  constructor
  · intro left right h
    constructor
    · intro request request' hrequest entropy entropy'
      exact TemplateProvider.encrypt_alike h hrequest entropy entropy'
    · intro request request' hrequest hraw hraw'
      exact TemplateProvider.decrypt_alikeByVerdict h hrequest hraw hraw'
  · intro left right h parameters parameters' hparameters data data' hdata
    constructor
    · intro entropy entropy'
      exact encryptBytes_alike h hparameters hdata entropy entropy'
    · intro hraw hraw'
      exact decryptBytes_alikeByVerdict h hparameters hdata hraw hraw'

/-- A provider whose deprecated default key is the given secret. -/
def secretProvider (secret : SecretKey) : TemplateProvider :=
  ⟨.ofKeys ((StaticStore.empty "main").insert "k" (.secret secret) (some true)),
    ⟨some "AES/CBC/PKCS5Padding", some "k", none⟩⟩

theorem secretProvider_alike {secret secret' : SecretKey} (h : secret.length = secret'.length) :
    (secretProvider secret).Alike (secretProvider secret') := by
  refine ⟨fun keyAlias => ?_, rfl⟩
  simp only [secretProvider, KeyStore.find?, StaticStore.find?, StaticStore.insert,
    AliasMap.get?_insert]
  by_cases halias : keyAlias = "k"
  · rw [if_pos halias, if_pos halias]
    exact .some ⟨.secret h, rfl, rfl⟩
  · rw [if_neg halias, if_neg halias]
    exact .none

/-- Two secrets of 16 bytes under one alias; two bytes are encrypted with either, and with neither
are they a ciphertext. -/
theorem runs_report_no_secret_two_bytes :
    Traced.Alike EncryptResult.Alike
      ((secretProvider ⟨List.replicate 16 7⟩).encrypt ⟨fun _ => 0, fun _ => ⟨1, by decide⟩⟩
        ⟨[104, 105], {}⟩)
      ((secretProvider ⟨List.replicate 16 8⟩).encrypt ⟨fun _ => 1, fun _ => ⟨2, by decide⟩⟩
        ⟨[111, 107], {}⟩) ∧
    Traced.AlikeByVerdict
      ((ofTemplates (0, secretProvider ⟨List.replicate 16 7⟩) []).decryptBytes {} [104, 105])
      ((ofTemplates (0, secretProvider ⟨List.replicate 16 8⟩) []).decryptBytes {} [111, 107]) := by
  have hproviders : (secretProvider ⟨List.replicate 16 7⟩).Alike
      (secretProvider ⟨List.replicate 16 8⟩) :=
    secretProvider_alike rfl
  have hparameters : Parameters.Alike {} {} := ⟨rfl, .none, rfl, rfl, rfl⟩
  have hservices : (ofTemplates (0, secretProvider ⟨List.replicate 16 7⟩) []).Alike
      (ofTemplates (0, secretProvider ⟨List.replicate 16 8⟩) []) :=
    ⟨.templates hproviders, .cons (.templates hproviders) .nil⟩
  obtain ⟨hprovider, hservice⟩ := runs_report_no_secret
  obtain ⟨hencrypt, -⟩ := hprovider _ _ hproviders
  obtain ⟨-, hdecrypt⟩ := hservice _ _ hservices {} {} hparameters [104, 105] [111, 107] rfl
  constructor
  · exact hencrypt ⟨[104, 105], {}⟩ ⟨[111, 107], {}⟩ ⟨rfl, hparameters⟩ _ _
  · exact hdecrypt (by decide +kernel) (by decide +kernel)

end Service

end CipherVault
