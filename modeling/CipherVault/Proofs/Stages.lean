import CipherVault.Proofs.Precedence
import CipherVault.Proofs.Provider
/-!
# The stages of a call

A call to a provider of templates looks for an algorithm, for a key, for the transform of that name
and for the payload, and then transforms.  Several of these can go wrong in one call.  What it
returns is the error of the first, and what it logs tells of the key and of the transform only.
-/

namespace CipherVault

namespace TemplateProvider

open Resolved (FindsKey Resolves)

/-- The bytes that a ciphertext has for a transform. -/
inductive Carries (ciphertext : Bytes) : Bytes → Prop
  | raw (htemplate : template? ciphertext = none) : Carries ciphertext ciphertext
  | template {template : Template} {bytes : Bytes}
      (htemplate : template? ciphertext = some template)
      (hbytes : Base64.decode template.payload = .ok bytes) : Carries ciphertext bytes

theorem payload_eq_ok_iff_carries {ciphertext bytes : Bytes} :
    payload ciphertext (template? ciphertext) = .ok bytes ↔ Carries ciphertext bytes := by
  constructor
  · intro h
    cases htemplate : template? ciphertext with
    | none =>
      rw [htemplate] at h
      cases h
      exact .raw htemplate
    | some template =>
      rw [htemplate, payload, Outcome.mapError_eq_ok] at h
      exact .template htemplate h
  · intro h
    cases h with
    | raw htemplate => rw [htemplate, payload]
    | template htemplate hbytes => rw [htemplate, payload, hbytes, Outcome.mapError_ok]

theorem Carries.unique {ciphertext bytes bytes' : Bytes} (h : Carries ciphertext bytes)
    (h' : Carries ciphertext bytes') : bytes = bytes' :=
  Except.ok.inj ((payload_eq_ok_iff_carries.mpr h).symm.trans (payload_eq_ok_iff_carries.mpr h'))

theorem payload_eq_error {ciphertext : Bytes} {e : CipherError}
    (h : payload ciphertext (template? ciphertext) = .error e) :
    ∃ template cause, template? ciphertext = some template ∧
      Base64.decode template.payload = .error cause ∧ e = .failure (.base64 cause) := by
  cases htemplate : template? ciphertext with
  | none =>
    rw [htemplate] at h
    cases h
  | some template =>
    rw [htemplate] at h
    obtain ⟨cause, hcause, rfl⟩ := Outcome.mapError_eq_error.mp h
    exact ⟨template, cause, rfl, hcause, rfl⟩

/-- Of a template there are bytes only if its payload decodes. -/
theorem Carries.decodes {ciphertext bytes : Bytes} (h : Carries ciphertext bytes)
    {template : Template} (htemplate : template? ciphertext = some template) :
    Base64.decode template.payload = .ok bytes := by
  cases h with
  | raw hraw => cases hraw.symm.trans htemplate
  | template hsame hbytes =>
    obtain rfl := Option.some.inj (hsame.symm.trans htemplate)
    exact hbytes

/-! ## Calls -/

inductive Call where
  | encrypt (provider : TemplateProvider) (entropy : Entropy) (request : EncryptionRequest)
  | decrypt (provider : TemplateProvider) (request : DecryptionRequest)

namespace Call

def provider : Call → TemplateProvider
  | encrypt provider _ _ | decrypt provider _ => provider

def parameters : Call → Parameters
  | encrypt _ _ request => request.parameters
  | decrypt _ request => request.parameters

def operation : Call → String
  | encrypt .. => "encrypt"
  | decrypt .. => "decrypt"

/-- The template that a call is given. -/
def template : Call → Option Template
  | encrypt .. => none
  | decrypt _ request => template? request.ciphertext

def embedded (call : Call) : Option MetaInfo :=
  call.template.map Template.metaInfo

/-- The error that a call returns. -/
def error? : Call → Option CipherError
  | encrypt provider entropy request =>
    match (provider.encrypt entropy request).outcome with
    | .ok _ => none
    | .error e => some e
  | decrypt provider request =>
    match (provider.decrypt request).outcome with
    | .ok _ => none
    | .error e => some e

def events : Call → List LogEvent
  | encrypt provider entropy request => (provider.encrypt entropy request).events
  | decrypt provider request => (provider.decrypt request).events

/-! ## Stages -/

inductive Stage where
  | algorithm
  | key
  | name
  | payload
  | transform
deriving DecidableEq, Repr

def Stage.position : Stage → Nat
  | algorithm => 0
  | key => 1
  | name => 2
  | payload => 3
  | transform => 4

theorem Stage.eq_of_position {stage other : Stage} (h : stage.position = other.position) :
    stage = other := by
  revert h
  cases stage <;> cases other <;> decide

theorem Stage.before_transform {stage : Stage} (h : stage ≠ .transform) :
    stage.position < transform.position := by
  revert h
  cases stage <;> decide

/-- A transform with its key does not do what a call asks for. -/
inductive Refuses : Call → Transform → KeyMaterial → CipherError → Prop
  | encrypt {provider : TemplateProvider} {entropy : Entropy} {request : EncryptionRequest}
      {transform : Transform} {material : KeyMaterial} {e : CipherError}
      (h : transform.encrypt material entropy request.parameters.iv request.plaintext = .error e) :
    Refuses (.encrypt provider entropy request) transform material e
  | decrypt {provider : TemplateProvider} {request : DecryptionRequest} {transform : Transform}
      {material : KeyMaterial} {bytes : Bytes} {e : CipherError}
      (hbytes : Carries request.ciphertext bytes)
      (h : transform.decrypt material bytes = .error e) :
    Refuses (.decrypt provider request) transform material e

/-- What is wrong with a stage of a call.  A stage is judged alone: of those before it, it takes no
more than what it works on. -/
inductive Breaks (call : Call) : Stage → CipherError → Prop
  | algorithm (hset : call.parameters.algorithm = none) (hembedded : call.embedded = none)
      (hconfigured : call.provider.defaults.algorithm = none) :
    Breaks call .algorithm (.missingDefault .algorithm)
  | key {e : CipherError}
      (h : FindsKey call.provider.keystore call.provider.defaults call.parameters call.embedded
        (.error e)) :
    Breaks call .key e
  | name {algorithm : String}
      (halgorithm : Prevails call.parameters.algorithm (call.embedded.map (·.algorithm))
        call.provider.defaults.algorithm algorithm)
      (hname : Transform.ofName? algorithm = none) :
    Breaks call .name (.illegal (.unsupportedAlgorithm algorithm))
  | payload {template : Template} {cause : Base64.DecodeError}
      (htemplate : call.template = some template)
      (hpayload : Base64.decode template.payload = .error cause) :
    Breaks call .payload (.failure (.base64 cause))
  | transform {resolved : Resolved} {transform : Transform} {e : CipherError}
      (hresolved : Resolves call.provider.keystore call.provider.defaults call.parameters
        call.embedded (.ok resolved))
      (hname : Transform.ofName? resolved.algorithm = some transform)
      (h : call.Refuses transform resolved.key.material e) :
    Breaks call .transform e

/-- No stage before this one goes wrong. -/
def Reaches (call : Call) (stage : Stage) : Prop :=
  ∀ earlier e, earlier.position < stage.position → ¬call.Breaks earlier e

/-- The first stage of a call that goes wrong. -/
structure FailsAt (call : Call) (stage : Stage) (e : CipherError) : Prop where
  breaks : call.Breaks stage e
  reaches : call.Reaches stage

variable {call : Call} {stage other : Stage} {e e' : CipherError}

theorem Refuses.unique {transform : Transform} {material : KeyMaterial}
    (h : call.Refuses transform material e) (h' : call.Refuses transform material e') : e = e' := by
  cases h with
  | encrypt h =>
    cases h' with
    | encrypt h' => exact Except.error.inj (h.symm.trans h')
  | decrypt hbytes h =>
    cases h' with
    | decrypt hbytes' h' =>
      obtain rfl := hbytes.unique hbytes'
      exact Except.error.inj (h.symm.trans h')

/-- A stage goes wrong in one way. -/
theorem Breaks.unique (h : call.Breaks stage e) (h' : call.Breaks stage e') : e = e' := by
  cases h with
  | algorithm =>
    cases h'
    rfl
  | key hkey =>
    cases h' with
    | key hkey' => exact Except.error.inj (hkey.unique hkey')
  | name halgorithm =>
    cases h' with
    | name halgorithm' => rw [halgorithm.unique halgorithm']
  | payload htemplate hpayload =>
    cases h' with
    | payload htemplate' hpayload' =>
      obtain rfl := Option.some.inj (htemplate.symm.trans htemplate')
      rw [Except.error.inj (hpayload.symm.trans hpayload')]
  | transform hresolved hname hrefuses =>
    cases h' with
    | transform hresolved' hname' hrefuses' =>
      obtain rfl := Except.ok.inj (hresolved.unique hresolved')
      obtain rfl := Option.some.inj (hname.symm.trans hname')
      exact hrefuses.unique hrefuses'

/-- A call fails at one stage. -/
theorem FailsAt.unique (h : call.FailsAt stage e) (h' : call.FailsAt other e') :
    stage = other ∧ e = e' := by
  -- Of two stages that go wrong, the earlier one keeps the call from reaching the other.
  rcases Nat.lt_trichotomy stage.position other.position with hbefore | hsame | hbehind
  · exact absurd h.breaks (h'.reaches stage e hbefore)
  · obtain rfl := Stage.eq_of_position hsame
    exact ⟨rfl, h.breaks.unique h'.breaks⟩
  · exact absurd h'.breaks (h.reaches other e' hbehind)

theorem Breaks.not_failsAt_transform (h : call.Breaks stage e) (hstage : stage ≠ .transform) :
    ¬call.FailsAt .transform e' :=
  fun hfails => hfails.reaches stage e (Stage.before_transform hstage) h

/-! ## How a call ends -/

def resolve (call : Call) : Except CipherError Resolved :=
  call.provider.resolve call.parameters call.embedded

/-- What a call says of its key once it has its transform. -/
def warnings : Call → Resolved → List LogEvent
  | encrypt .., resolved => deprecationEvents resolved
  | decrypt .., _ => []

/-- There are bytes behind the template that a call is given, if it is given one. -/
def Decodes (call : Call) : Prop :=
  ∀ template, call.template = some template → ∃ bytes, Base64.decode template.payload = .ok bytes

/-- All ends that a call has, with its error and its events. -/
inductive Ends (call : Call) : Option CipherError → List LogEvent → Prop
  | unresolved {e : CipherError} (hresolved : call.resolve = .error e) : Ends call (some e) []
  | unnamed {resolved : Resolved} (hresolved : call.resolve = .ok resolved)
      (hname : Transform.ofName? resolved.algorithm = none) :
    Ends call (some (.illegal (.unsupportedAlgorithm resolved.algorithm))) []
  | undecoded {resolved : Resolved} {transform : Transform} {template : Template}
      {cause : Base64.DecodeError} (hresolved : call.resolve = .ok resolved)
      (hname : Transform.ofName? resolved.algorithm = some transform)
      (htemplate : call.template = some template)
      (hpayload : Base64.decode template.payload = .error cause) :
    Ends call (some (.failure (.base64 cause))) (call.warnings resolved)
  | refused {resolved : Resolved} {transform : Transform} {e : CipherError}
      (hresolved : call.resolve = .ok resolved)
      (hname : Transform.ofName? resolved.algorithm = some transform)
      (h : call.Refuses transform resolved.key.material e) :
    Ends call (some e)
      (call.warnings resolved ++ [.cryptoFailed call.operation e.message])
  | completed {resolved : Resolved} {transform : Transform}
      (hresolved : call.resolve = .ok resolved)
      (hname : Transform.ofName? resolved.algorithm = some transform)
      (hpayload : call.Decodes) (h : ∀ e, ¬call.Refuses transform resolved.key.material e) :
    Ends call none (call.warnings resolved)

theorem ends_encrypt (provider : TemplateProvider) (entropy : Entropy)
    (request : EncryptionRequest) :
    (encrypt provider entropy request).Ends (encrypt provider entropy request).error?
      (encrypt provider entropy request).events := by
  -- The cases follow the run: what one step yields is what the next works on.
  rw [error?, events, TemplateProvider.encrypt]
  cases hresolved : provider.resolve request.parameters none with
  | error e => exact .unresolved hresolved
  | ok resolved =>
    rw [Traced.ofExcept_ok_bind, Transform.parse]
    cases hname : Transform.ofName? resolved.algorithm with
    | none => exact .unnamed hresolved hname
    | some transform =>
      rw [Traced.ofExcept_ok_bind, Traced.reportAll_bind]
      cases hdata : transform.encrypt resolved.key.material entropy request.parameters.iv
          request.plaintext with
      | error e => exact .refused hresolved hname (.encrypt hdata)
      | ok data =>
        rw [Traced.reportFailure_ok_bind]
        change Ends _ none (deprecationEvents resolved ++ [])
        rw [List.append_nil]
        refine .completed hresolved hname (fun _ htemplate => by cases htemplate) ?_
        intro e hrefuses
        cases hrefuses with
        | encrypt hrefused => cases hdata.symm.trans hrefused

theorem ends_decrypt (provider : TemplateProvider) (request : DecryptionRequest) :
    (decrypt provider request).Ends (decrypt provider request).error?
      (decrypt provider request).events := by
  rw [error?, events, TemplateProvider.decrypt]
  cases hresolved : provider.resolve request.parameters
      ((template? request.ciphertext).map Template.metaInfo) with
  | error e => exact .unresolved hresolved
  | ok resolved =>
    rw [Traced.ofExcept_ok_bind, Transform.parse]
    cases hname : Transform.ofName? resolved.algorithm with
    | none => exact .unnamed hresolved hname
    | some transform =>
      rw [Traced.ofExcept_ok_bind]
      cases hpayload : payload request.ciphertext (template? request.ciphertext) with
      | error e =>
        obtain ⟨template, cause, htemplate, hcause, rfl⟩ := payload_eq_error hpayload
        exact .undecoded hresolved hname htemplate hcause
      | ok bytes =>
        have hbytes := payload_eq_ok_iff_carries.mp hpayload
        rw [Traced.ofExcept_ok_bind]
        cases hplain : transform.decrypt resolved.key.material bytes with
        | error e => exact .refused hresolved hname (.decrypt hbytes hplain)
        | ok plain =>
          refine .completed hresolved hname
            (fun _ htemplate => ⟨bytes, hbytes.decodes htemplate⟩) ?_
          intro e hrefuses
          cases hrefuses with
          | decrypt hbytes' hrefused =>
            obtain rfl := hbytes.unique hbytes'
            cases hplain.symm.trans hrefused

theorem ends (call : Call) : call.Ends call.error? call.events := by
  cases call with
  | encrypt provider entropy request => exact ends_encrypt provider entropy request
  | decrypt provider request => exact ends_decrypt provider request

/-! ## The first stage that goes wrong -/

section Reaches

variable {resolved : Resolved} {transform : Transform}

theorem resolve_eq_ok_iff :
    call.resolve = .ok resolved ↔
      Resolves call.provider.keystore call.provider.defaults call.parameters call.embedded
        (.ok resolved) :=
  Resolved.resolve_eq_iff

theorem algorithm_of_resolve (h : call.resolve = .ok resolved) :
    Prevails call.parameters.algorithm (call.embedded.map (·.algorithm))
      call.provider.defaults.algorithm resolved.algorithm :=
  (Resolved.resolves_ok_iff.mp (resolve_eq_ok_iff.mp h)).1

theorem Reaches.next (h : call.Reaches stage) (hintact : ∀ e, ¬call.Breaks stage e)
    (hnext : other.position = stage.position + 1) : call.Reaches other := by
  intro earlier e hbefore hbreaks
  rw [hnext] at hbefore
  rcases Nat.lt_succ_iff_lt_or_eq.mp hbefore with hlt | heq
  · exact h earlier e hlt hbreaks
  · obtain rfl := Stage.eq_of_position heq
    exact hintact e hbreaks

theorem reaches_algorithm (call : Call) : call.Reaches .algorithm :=
  fun _ _ hbefore => absurd hbefore (Nat.not_lt_zero _)

theorem reaches_key {algorithm : String}
    (h : Prevails call.parameters.algorithm (call.embedded.map (·.algorithm))
      call.provider.defaults.algorithm algorithm) : call.Reaches .key := by
  apply (reaches_algorithm call).next _ rfl
  rintro e ⟨hset, hembedded, hconfigured⟩
  rw [hset, hembedded, hconfigured] at h
  cases h

theorem reaches_name (h : call.resolve = .ok resolved) : call.Reaches .name := by
  apply (reaches_key (algorithm_of_resolve h)).next _ rfl
  intro e hbreaks
  have hkey := (Resolved.resolves_ok_iff.mp (resolve_eq_ok_iff.mp h)).2
  cases hbreaks with
  | key hmissing => cases hkey.unique hmissing

theorem reaches_payload (h : call.resolve = .ok resolved)
    (hname : Transform.ofName? resolved.algorithm = some transform) : call.Reaches .payload := by
  apply (reaches_name h).next _ rfl
  intro e hbreaks
  cases hbreaks with
  | name halgorithm hunsupported =>
    rw [halgorithm.unique (algorithm_of_resolve h), hname] at hunsupported
    cases hunsupported

theorem reaches_transform (h : call.resolve = .ok resolved)
    (hname : Transform.ofName? resolved.algorithm = some transform)
    (hpayload : call.Decodes) : call.Reaches .transform := by
  apply (reaches_payload h hname).next _ rfl
  intro e hbreaks
  cases hbreaks with
  | payload htemplate hcause =>
    obtain ⟨bytes, hbytes⟩ := hpayload _ htemplate
    cases hbytes.symm.trans hcause

theorem Refuses.decodes {material : KeyMaterial} (h : call.Refuses transform material e) :
    call.Decodes := by
  cases h with
  | encrypt => nofun
  | decrypt hbytes => exact fun _ htemplate => ⟨_, hbytes.decodes htemplate⟩

theorem exists_failsAt_of_resolve (h : call.resolve = .error e) :
    ∃ stage, stage ≠ .transform ∧ call.FailsAt stage e := by
  cases Resolved.resolve_eq_iff.mp h with
  | noAlgorithm hset hembedded hconfigured =>
    exact ⟨.algorithm, nofun, .algorithm hset hembedded hconfigured, reaches_algorithm call⟩
  | noKey halgorithm hkey => exact ⟨.key, nofun, .key hkey, reaches_key halgorithm⟩

end Reaches

theorem Ends.failsAt {events : List LogEvent} (h : call.Ends (some e) events) :
    ∃ stage, call.FailsAt stage e := by
  cases h with
  | unresolved hresolved =>
    obtain ⟨stage, -, hfails⟩ := exists_failsAt_of_resolve hresolved
    exact ⟨stage, hfails⟩
  | unnamed hresolved hname =>
    exact ⟨.name, .name (algorithm_of_resolve hresolved) hname, reaches_name hresolved⟩
  | undecoded hresolved hname htemplate hpayload =>
    exact ⟨.payload, .payload htemplate hpayload, reaches_payload hresolved hname⟩
  | refused hresolved hname hrefuses =>
    exact ⟨.transform, .transform (resolve_eq_ok_iff.mp hresolved) hname hrefuses,
      reaches_transform hresolved hname hrefuses.decodes⟩

/-- A call without an error goes well at every stage. -/
theorem Ends.not_breaks {events : List LogEvent} (h : call.Ends none events) :
    ¬call.Breaks stage e := by
  cases h with
  | completed hresolved hname hpayload hdone =>
    intro hbreaks
    by_cases hlast : stage = .transform
    · subst hlast
      cases hbreaks with
      | transform hresolved' hname' hrefuses =>
        obtain rfl := Except.ok.inj ((resolve_eq_ok_iff.mp hresolved).unique hresolved')
        obtain rfl := Option.some.inj (hname.symm.trans hname')
        exact hdone _ hrefuses
    · exact reaches_transform hresolved hname hpayload stage e (Stage.before_transform hlast)
        hbreaks

theorem error?_eq_some_iff : call.error? = some e ↔ ∃ stage, call.FailsAt stage e := by
  have hends := call.ends
  constructor
  · intro h
    rw [h] at hends
    exact hends.failsAt
  · rintro ⟨stage, hfails⟩
    cases herror : call.error? with
    | none =>
      rw [herror] at hends
      exact absurd hfails.breaks hends.not_breaks
    | some e' =>
      rw [herror] at hends
      obtain ⟨other, hother⟩ := hends.failsAt
      rw [(hother.unique hfails).2]

theorem error?_eq_none_iff : call.error? = none ↔ ∀ stage e, ¬call.Breaks stage e := by
  have hends := call.ends
  constructor
  · intro h stage e
    rw [h] at hends
    exact hends.not_breaks
  · intro h
    cases herror : call.error? with
    | none => rfl
    | some e =>
      obtain ⟨stage, hfails⟩ := error?_eq_some_iff.mp herror
      exact absurd hfails.breaks (h stage e)

end Call

end TemplateProvider

end CipherVault
