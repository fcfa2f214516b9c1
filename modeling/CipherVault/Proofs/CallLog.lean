import CipherVault.Proofs.Stages
/-!
# What calls log

The log of a call to a provider of templates has a warning if it encrypts with a deprecated key, and
behind it the error of the transform if that is what fails.  Every other failure is silent.  So the
log of a run tells which calls got how far.
-/

namespace CipherVault

namespace LogEvent

theorem line_deprecatedKeyUsed (keyAlias algorithm : String) :
    (deprecatedKeyUsed keyAlias algorithm).line =
      "WARN: Deprecated key '" ++ keyAlias ++ "' used to encrypt with " ++ algorithm := by
  have hstart : "WARN: Deprecated key '" = "WARN" ++ ": " ++ "Deprecated key '" := by decide
  change "WARN" ++ ": " ++
    ("Deprecated key '" ++ keyAlias ++ "' used to encrypt with " ++ algorithm) = _
  rw [hstart]
  simp only [String.append_assoc]

theorem line_cryptoFailed (operation text : String) :
    (cryptoFailed operation text).line =
      "DEBUG: Cryptographic operation failed: " ++ operation ++ ": " ++ text := by
  have hstart : "DEBUG: Cryptographic operation failed: " =
      "DEBUG" ++ ": " ++ "Cryptographic operation failed: " := by decide
  change "DEBUG" ++ ": " ++ ("Cryptographic operation failed: " ++ operation ++ ": " ++ text) = _
  rw [hstart]
  simp only [String.append_assoc]

end LogEvent

namespace TemplateProvider.Call

open Resolved (Resolves)

/-- What calls log one after the other. -/
def log (calls : List Call) : List String :=
  calls.flatMap fun call => call.events.map LogEvent.line

/-! ## What the log of a call says -/

/-- A call gets as far as encrypting, with the key under an alias that is marked deprecated. -/
def UsesDeprecated : Call → (keyAlias algorithm : String) → Prop
  | encrypt provider _ request, keyAlias, algorithm =>
    (∃ material, Resolves provider.keystore provider.defaults request.parameters none
      (.ok ⟨algorithm, material, .stored keyAlias true⟩)) ∧
    ∃ transform, Transform.ofName? algorithm = some transform
  | decrypt .., _, _ => False

/-- What a call logs of its key. -/
inductive Warns (call : Call) : List String → Prop
  | deprecated {keyAlias algorithm : String} (h : call.UsesDeprecated keyAlias algorithm) :
    Warns call ["WARN: Deprecated key '" ++ keyAlias ++ "' used to encrypt with " ++ algorithm]
  | silent (h : ∀ keyAlias algorithm, ¬call.UsesDeprecated keyAlias algorithm) : Warns call []

/-- What a call logs of its transform. -/
inductive LogsFailure (call : Call) : List String → Prop
  | failed {e : CipherError} (h : call.FailsAt .transform e) :
    LogsFailure call
      ["DEBUG: Cryptographic operation failed: " ++ call.operation ++ ": " ++ e.message]
  | silent (h : ∀ e, ¬call.FailsAt .transform e) : LogsFailure call []

/-- What a run of calls logs: of each call its key and then its transform, if at all. -/
inductive Logs : List Call → List String → Prop
  | nil : Logs [] []
  | cons {call : Call} {calls : List Call} {warnings failures lines : List String}
      (hwarnings : call.Warns warnings) (hfailures : call.LogsFailure failures)
      (hrest : Logs calls lines) :
    Logs (call :: calls) (warnings ++ failures ++ lines)

variable {call : Call} {resolved : Resolved} {transform : Transform} {lines lines' : List String}

theorem resolve_of_usesDeprecated {keyAlias algorithm : String}
    (h : call.UsesDeprecated keyAlias algorithm) :
    ∃ material transform, call.resolve = .ok ⟨algorithm, material, .stored keyAlias true⟩ ∧
      Transform.ofName? algorithm = some transform := by
  cases call with
  | encrypt provider entropy request =>
    obtain ⟨⟨material, hresolves⟩, transform, hname⟩ := h
    exact ⟨material, transform, resolve_eq_ok_iff.mpr hresolves, hname⟩
  | decrypt provider request => cases h

theorem UsesDeprecated.unique {keyAlias keyAlias' algorithm algorithm' : String}
    (h : call.UsesDeprecated keyAlias algorithm) (h' : call.UsesDeprecated keyAlias' algorithm') :
    keyAlias = keyAlias' ∧ algorithm = algorithm' := by
  obtain ⟨_, _, hresolved, -⟩ := resolve_of_usesDeprecated h
  obtain ⟨_, _, hresolved', -⟩ := resolve_of_usesDeprecated h'
  cases hresolved.symm.trans hresolved'
  exact ⟨rfl, rfl⟩

theorem Warns.unique (h : call.Warns lines) (h' : call.Warns lines') : lines = lines' := by
  cases h with
  | deprecated huses =>
    cases h' with
    | deprecated huses' =>
      obtain ⟨rfl, rfl⟩ := huses.unique huses'
      rfl
    | silent hsilent => exact absurd huses (hsilent _ _)
  | silent hsilent =>
    cases h' with
    | deprecated huses => exact absurd huses (hsilent _ _)
    | silent => rfl

theorem LogsFailure.unique (h : call.LogsFailure lines) (h' : call.LogsFailure lines') :
    lines = lines' := by
  cases h with
  | failed hfails =>
    cases h' with
    | failed hfails' => rw [(hfails.unique hfails').2]
    | silent hsilent => exact absurd hfails (hsilent _)
  | silent hsilent =>
    cases h' with
    | failed hfails => exact absurd hfails (hsilent _)
    | silent => rfl

theorem Logs.unique {calls : List Call} (h : Logs calls lines) (h' : Logs calls lines') :
    lines = lines' := by
  induction h generalizing lines' with
  | nil =>
    cases h'
    rfl
  | cons hwarnings hfailures hrest ih =>
    cases h' with
    | cons hwarnings' hfailures' hrest' =>
      rw [hwarnings.unique hwarnings', hfailures.unique hfailures', ih hrest']

/-! ## One call -/

theorem warns_of_resolve (hresolved : call.resolve = .ok resolved)
    (hname : Transform.ofName? resolved.algorithm = some transform) :
    call.Warns ((call.warnings resolved).map LogEvent.line) := by
  cases call with
  | encrypt provider entropy request =>
    obtain ⟨algorithm, material, source⟩ := resolved
    rw [warnings, deprecationEvents]
    split
    · next keyAlias hsource =>
      obtain rfl : source = .stored keyAlias true := hsource
      rw [List.map_cons, List.map_nil, LogEvent.line_deprecatedKeyUsed]
      exact .deprecated ⟨⟨material, resolve_eq_ok_iff.mp hresolved⟩, transform, hname⟩
    · next hsource =>
      refine .silent fun keyAlias spelled huses => ?_
      obtain ⟨_, _, hresolved', -⟩ := resolve_of_usesDeprecated huses
      cases hresolved.symm.trans hresolved'
      exact hsource keyAlias rfl
  | decrypt provider request => exact .silent fun _ _ => id

theorem Ends.logged {failure : Option CipherError} {events : List LogEvent}
    (h : call.Ends failure events) :
    ∃ warnings failures, events.map LogEvent.line = warnings ++ failures ∧ call.Warns warnings ∧
      call.LogsFailure failures := by
  -- Before its transform has a name a call has nothing to warn of; a stage that goes wrong before
  -- the transform leaves the transform without an error to log.
  have hends := h
  cases h with
  | unresolved hresolved =>
    obtain ⟨stage, hstage, hfails⟩ := exists_failsAt_of_resolve hresolved
    refine ⟨[], [], rfl, .silent ?_, .silent fun _ => hfails.breaks.not_failsAt_transform hstage⟩
    intro keyAlias algorithm huses
    obtain ⟨_, _, hresolved', -⟩ := resolve_of_usesDeprecated huses
    cases hresolved.symm.trans hresolved'
  | unnamed hresolved hname =>
    have hbreaks := Breaks.name (algorithm_of_resolve hresolved) hname
    refine ⟨[], [], rfl, .silent ?_, .silent fun _ => hbreaks.not_failsAt_transform nofun⟩
    intro keyAlias algorithm huses
    obtain ⟨_, _, hresolved', hname'⟩ := resolve_of_usesDeprecated huses
    cases hresolved.symm.trans hresolved'
    cases hname.symm.trans hname'
  | undecoded hresolved hname htemplate hpayload =>
    have hbreaks := Breaks.payload htemplate hpayload
    exact ⟨_, [], (List.append_nil _).symm, warns_of_resolve hresolved hname,
      .silent fun _ => hbreaks.not_failsAt_transform nofun⟩
  | refused hresolved hname hrefuses =>
    have hbreaks := Breaks.transform (resolve_eq_ok_iff.mp hresolved) hname hrefuses
    have hreaches := reaches_transform hresolved hname hrefuses.decodes
    refine ⟨_, _, List.map_append, warns_of_resolve hresolved hname, ?_⟩
    rw [List.map_cons, List.map_nil, LogEvent.line_cryptoFailed]
    exact .failed ⟨hbreaks, hreaches⟩
  | completed hresolved hname =>
    exact ⟨_, [], (List.append_nil _).symm, warns_of_resolve hresolved hname,
      .silent fun _ hfails => hends.not_breaks hfails.breaks⟩

/-! ## Runs -/

theorem logs_log (calls : List Call) : Logs calls (log calls) := by
  induction calls with
  | nil => exact .nil
  | cons call rest ih =>
    obtain ⟨warnings, failures, hlines, hwarnings, hfailures⟩ := call.ends.logged
    rw [log, List.flatMap_cons, hlines]
    exact .cons hwarnings hfailures ih

theorem log_eq_iff {calls : List Call} : log calls = lines ↔ Logs calls lines :=
  ⟨fun h => h ▸ logs_log calls, (logs_log calls).unique⟩

/-- A call returns the error of the first of its stages that goes wrong, and none if all go well; so
an alias that the keystore lacks is what it returns whatever the name of the algorithm and the
payload are.  A run of calls logs, call by call, which deprecated key is used to encrypt under which
spelling of the algorithm, and the error of a transform that fails, and nothing else. -/
theorem first_broken_stage_decides :
    (∀ call : Call,
      (∀ e, call.error? = some e ↔ ∃ stage, call.FailsAt stage e) ∧
      (call.error? = none ↔ ∀ stage e, ¬call.Breaks stage e) ∧
      ∀ algorithm keyAlias, call.parameters.key = none →
        Prevails call.parameters.algorithm (call.embedded.map (·.algorithm))
          call.provider.defaults.algorithm algorithm →
        Prevails call.parameters.keyAlias (call.embedded.map (·.keyAlias))
          call.provider.defaults.keyAlias keyAlias →
        call.provider.keystore.find? keyAlias = none →
        call.error? = some (.keyNotFound keyAlias)) ∧
    ∀ calls lines, log calls = lines ↔ Logs calls lines := by
  refine ⟨fun call => ⟨fun e => error?_eq_some_iff, error?_eq_none_iff, ?_⟩,
    fun calls lines => log_eq_iff⟩
  intro algorithm keyAlias hkey halgorithm halias hmissing
  exact error?_eq_some_iff.mpr
    ⟨.key, .key (.unknownAlias hkey halias hmissing), reaches_key halgorithm⟩

/-- A provider whose only key is deprecated and whose transform does not pad. -/
def unpaddedProvider : TemplateProvider :=
  ⟨.ofKeys ((StaticStore.empty "main").insert "k" (.ofSecret (List.replicate 16 8)) (some true)),
    ⟨some "aes/ecb/nopadding", some "k", none⟩⟩

/-- A template without a transform of its name, a key under its alias and a payload in base64. -/
def unknownAlias : Call :=
  .decrypt unpaddedProvider ⟨Utf8.encode "{v2c}{des}{gone}{x}", {}⟩

/-- The alias is what comes first of three that are wrong.  Of a run that goes on to encrypt two
bytes, the log has a warning and an error of the second call. -/
theorem first_broken_stage_decides_unknown_alias :
    unknownAlias.error? = some (.keyNotFound "gone") ∧
    Logs [unknownAlias,
        .encrypt unpaddedProvider ⟨fun _ => 0, fun _ => ⟨1, by decide⟩⟩ ⟨[104, 105], {}⟩]
      ["WARN: Deprecated key 'k' used to encrypt with aes/ecb/nopadding",
        "DEBUG: Cryptographic operation failed: encrypt: Cryptographic operation failed: " ++
          "NoPadding input of 2 bytes is not a multiple of the block size"] := by
  have hembedded : unknownAlias.embedded = some ⟨"des", "gone"⟩ := by decide +kernel
  have hmissing : unpaddedProvider.keystore.find? "gone" = none := by decide
  obtain ⟨hcall, hlog⟩ := first_broken_stage_decides
  obtain ⟨-, -, hunknown⟩ := hcall unknownAlias
  constructor
  · apply hunknown "des" "gone" rfl _ _ hmissing
    · rw [hembedded]
      exact .embedded _ _
    · rw [hembedded]
      exact .embedded _ _
  · exact (hlog _ _).mp (by decide +kernel)

end TemplateProvider.Call

end CipherVault
