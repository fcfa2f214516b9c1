import CipherVault.Keystore.Load
import CipherVault.Proofs.Keystore.SealedFields
/-!
# Unlocking an entry

An entry of an image unlocks to a key or is refused for one reason; which of them depends on the
entry and on the password that is present for it.
-/

namespace CipherVault

namespace ImageEntry

/-- The encoded key of an entry under the password that is present: the material itself without
protection, else what was sealed under the password. -/
inductive Opens (entry : ImageEntry) : Option Password → Bytes → Prop where
  | plain {encoded : Bytes} (hprotection : entry.protection = none)
      (hmaterial : entry.material = Base64.encode encoded) :
    Opens entry none encoded
  | sealed {protection : EntryProtection} {password : Password} {encoded : Bytes}
      (hprotection : entry.protection = some protection)
      (hmaterial : protection.derivation.IsSealed password.bytes protection.nonce entry.material
        encoded) :
    Opens entry (some password) encoded

/-- The entry holds the key, in an encoding of its kind. -/
def Unlocks (entry : ImageEntry) (password : Option Password) (material : KeyMaterial) : Prop :=
  ∃ encoded, entry.Opens password encoded ∧ KeyMaterial.decode entry.kind encoded = .ok material

/-- Why an entry does not unlock, with the error that tells so: of the key for a password that does
not fit, of the keystore for everything else. -/
inductive Refuses (entry : ImageEntry) (identity : String) : Option Password → KeyError → Prop where
  | passwordMissing {protection : EntryProtection}
      (hprotection : entry.protection = some protection) :
    Refuses entry identity none (.badPassword entry.keyAlias .passwordMissing)
  | keyNotProtected {password : Password} (hprotection : entry.protection = none) :
    Refuses entry identity (some password) (.badPassword entry.keyAlias .keyNotProtected)
  | wrongPassword {protection : EntryProtection} {password : Password}
      (hprotection : entry.protection = some protection)
      (hwell : protection.derivation.WellFormed protection.nonce entry.material)
      (hmaterial : ∀ encoded, ¬protection.derivation.IsSealed password.bytes protection.nonce
        entry.material encoded) :
    Refuses entry identity (some password) (.badPassword entry.keyAlias .wrongPassword)
  | field {protection : EntryProtection} {password : Password} {cause : ImageError}
      (hprotection : entry.protection = some protection)
      (hdefect : protection.derivation.FieldDefect protection.nonce entry.material cause) :
    Refuses entry identity (some password) (.invalidKeystore identity (.image cause))
  | material (hprotection : entry.protection = none)
      (hmaterial : ¬Base64.IsEncoded entry.material) :
    Refuses entry identity none (.invalidKeystore identity (.image (.notBase64 .material)))
  | key {password : Option Password} {encoded : Bytes} {cause : MaterialError}
      (hopens : entry.Opens password encoded)
      (hkey : KeyMaterial.decode entry.kind encoded = .error cause) :
    Refuses entry identity password (.invalidKeystore identity (.key entry.keyAlias cause))

variable {entry : ImageEntry} {identity : String} {password : Option Password} {encoded : Bytes}
  {material : KeyMaterial} {e : KeyError}

theorem opens_cases (entry : ImageEntry) (identity : String) (password : Option Password) :
    (∃ encoded, entry.Opens password encoded) ∨ ∃ e, entry.Refuses identity password e := by
  cases hprotection : entry.protection with
  | none =>
    cases password with
    | some password => exact .inr ⟨_, .keyNotProtected hprotection⟩
    | none =>
      by_cases hmaterial : Base64.IsEncoded entry.material
      · obtain ⟨encoded, hencoded⟩ := hmaterial
        exact .inl ⟨encoded, .plain hprotection hencoded⟩
      · exact .inr ⟨_, .material hprotection hmaterial⟩
  | some protection =>
    cases password with
    | none => exact .inr ⟨_, .passwordMissing hprotection⟩
    | some password =>
      obtain hwell | ⟨cause, hdefect⟩ := protection.derivation.wellFormed_or_fieldDefect
        protection.nonce entry.material
      · by_cases hsealed : ∃ encoded, protection.derivation.IsSealed password.bytes
          protection.nonce entry.material encoded
        · obtain ⟨encoded, hencoded⟩ := hsealed
          exact .inl ⟨encoded, .sealed hprotection hencoded⟩
        · exact .inr ⟨_, .wrongPassword hprotection hwell (not_exists.mp hsealed)⟩
      · exact .inr ⟨_, .field hprotection hdefect⟩

/-- Every entry unlocks or is refused. -/
theorem unlocks_or_refuses (entry : ImageEntry) (identity : String)
    (password : Option Password) :
    (∃ material, entry.Unlocks password material) ∨ ∃ e, entry.Refuses identity password e := by
  obtain ⟨encoded, hopens⟩ | hrefuses := opens_cases entry identity password
  · cases hkey : KeyMaterial.decode entry.kind encoded with
    | ok material => exact .inl ⟨material, encoded, hopens, hkey⟩
    | error cause => exact .inr ⟨_, .key hopens hkey⟩
  · exact .inr hrefuses

theorem Opens.encodedKey_eq (h : entry.Opens password encoded) :
    entry.encodedKey password = .ok encoded := by
  cases h with
  | plain hprotection hmaterial =>
    simp only [encodedKey, hprotection, hmaterial, ImageField.decode_encode]
  | sealed hprotection hmaterial =>
    have hopened := KeyDerivation.openData_eq_ok_some_iff_isSealed.mpr hmaterial
    simp only [encodedKey, hprotection, hopened, Outcome.ok_bind]

/-- Where a password is there just when it is needed, what opens is the encoded key. -/
theorem opens_of_encodedKey (hmatch : entry.isProtected = password.isSome)
    (h : entry.encodedKey password = .ok encoded) : entry.Opens password encoded := by
  cases hprotection : entry.protection with
  | none =>
    rw [isProtected, hprotection, eq_comm, Option.isSome_none, Option.isSome_eq_false_iff,
      Option.isNone_iff_eq_none] at hmatch
    subst hmatch
    rw [encodedKey.eq_def, hprotection] at h
    exact .plain hprotection (ImageField.decode_eq_ok_iff.mp h)
  | some protection =>
    rw [isProtected, hprotection, eq_comm, Option.isSome_some, Option.isSome_iff_exists] at hmatch
    obtain ⟨password, rfl⟩ := hmatch
    rw [encodedKey.eq_def, hprotection] at h
    obtain ⟨opened, hopened, h⟩ := Outcome.bind_eq_ok.mp h
    cases opened with
    | none => cases h
    | some data =>
      cases h
      exact .sealed hprotection (KeyDerivation.openData_eq_ok_some_iff_isSealed.mp hopened)

theorem Opens.isProtected_eq (h : entry.Opens password encoded) :
    entry.isProtected = password.isSome := by
  cases h with
  | plain hprotection _ => exact congrArg Option.isSome hprotection
  | sealed hprotection _ => exact congrArg Option.isSome hprotection

theorem Opens.unique {other : Bytes} (h : entry.Opens password encoded)
    (hother : entry.Opens password other) : encoded = other :=
  Except.ok.inj (h.encodedKey_eq.symm.trans hother.encodedKey_eq)

/-- An entry that opens is refused only for a key that its kind has no such encoding of. -/
theorem Refuses.of_opens (h : entry.Refuses identity password e)
    (hopens : entry.Opens password encoded) :
    ∃ cause, KeyMaterial.decode entry.kind encoded = .error cause ∧
      e = .invalidKeystore identity (.key entry.keyAlias cause) := by
  cases h with
  | key hother hkey =>
    obtain rfl := hopens.unique hother
    exact ⟨_, hkey, rfl⟩
  | passwordMissing hprotection =>
    obtain ⟨hplain, _⟩ := hopens
    cases hplain.symm.trans hprotection
  | material hprotection hmaterial =>
    obtain ⟨_, hencoded⟩ := hopens
    exact absurd ⟨encoded, hencoded⟩ hmaterial
  | keyNotProtected hplain =>
    obtain _ | ⟨hprotection, _⟩ := hopens
    cases hplain.symm.trans hprotection
  | wrongPassword hprotection _ hmaterial =>
    obtain _ | ⟨hsame, hsealed⟩ := hopens
    obtain rfl := Option.some.inj (hprotection.symm.trans hsame)
    exact absurd hsealed (hmaterial encoded)
  | field hprotection hdefect =>
    obtain _ | ⟨hsame, hsealed⟩ := hopens
    obtain rfl := Option.some.inj (hprotection.symm.trans hsame)
    have hopened := KeyDerivation.openData_eq_ok_some_iff_isSealed.mpr hsealed
    cases (hdefect.openData_eq _).symm.trans hopened

end ImageEntry

/-- A defect of the fields is one of the image, and no matter of the password. -/
theorem KeyDerivation.FieldDefect.entryError_eq {derivation : KeyDerivation}
    {nonce payload : String} {cause : ImageError} (h : derivation.FieldDefect nonce payload cause)
    (identity : String) : cause.entryError identity = .invalidKeystore identity (.image cause) := by
  cases h <;> rfl

@[simp]
theorem Password.nonEmpty_nonEmpty (password : Option Password) :
    nonEmpty (nonEmpty password) = nonEmpty password := by
  simp [nonEmpty, Option.filter_filter]

theorem Password.nonEmpty_of_nonEmpty_eq {configured password : Option Password}
    (h : nonEmpty configured = password) : nonEmpty password = password := by
  rw [← h, nonEmpty_nonEmpty]

/-- A password that is present is missing or superfluous by the protection alone. -/
theorem ProtectionState.mismatch_classify (isProtected : Bool) {password : Option Password}
    (hpresent : Password.nonEmpty password = password) :
    (classify isProtected password).mismatch =
      match isProtected, password with
      | true, none => some .passwordMissing
      | false, some _ => some .keyNotProtected
      | true, some _ | false, none => none := by
  rw [classify.eq_def, hpresent]
  cases isProtected <;> cases password <;> rfl

namespace LocalStore

variable {identity : String} {entry : ImageEntry} {keyConfig : Option KeyConfig}
  {password : Option Password} {encoded : Bytes} {material : KeyMaterial} {e : KeyError}

theorem unlock_of_mismatch {mismatch : PasswordMismatch}
    (hpassword : Password.nonEmpty (keyConfig.bind (·.password)) = password)
    (hmismatch : (ProtectionState.classify entry.isProtected password).mismatch = some mismatch) :
    (unlock identity entry keyConfig).outcome = .error (.badPassword entry.keyAlias mismatch) := by
  simp only [unlock, hpassword, hmismatch]
  rfl

/-- A password that is there just when it is needed is tried. -/
theorem unlock_of_match
    (hpassword : Password.nonEmpty (keyConfig.bind (·.password)) = password)
    (hmatch : entry.isProtected = password.isSome) :
    (unlock identity entry keyConfig).outcome =
      (entry.encodedKey password).mapError (ImageError.entryError identity) >>= fun encoded =>
        (KeyMaterial.decode entry.kind encoded).mapError
          fun cause => .invalidKeystore identity (.key entry.keyAlias cause) := by
  have hpresent := Password.nonEmpty_of_nonEmpty_eq hpassword
  have hnone : (ProtectionState.classify entry.isProtected password).mismatch = none := by
    rw [ProtectionState.mismatch_classify _ hpresent, hmatch]
    cases password <;> rfl
  simp only [unlock, hpassword, hnone, Traced.outcome_bind, Traced.outcome_ofExcept,
    Traced.outcome_report, Traced.outcome_pure, Outcome.ok_bind, Outcome.bind_ok]

theorem unlock_of_encodedKey_error {cause : ImageError}
    (hpassword : Password.nonEmpty (keyConfig.bind (·.password)) = password)
    (hmatch : entry.isProtected = password.isSome)
    (hencoded : entry.encodedKey password = .error cause) :
    (unlock identity entry keyConfig).outcome = .error (cause.entryError identity) := by
  rw [unlock_of_match hpassword hmatch, hencoded, Outcome.mapError_error, Outcome.error_bind]

theorem unlock_of_opens
    (hpassword : Password.nonEmpty (keyConfig.bind (·.password)) = password)
    (hopens : entry.Opens password encoded) :
    (unlock identity entry keyConfig).outcome = (KeyMaterial.decode entry.kind encoded).mapError
      fun cause => .invalidKeystore identity (.key entry.keyAlias cause) := by
  rw [unlock_of_match hpassword hopens.isProtected_eq, hopens.encodedKey_eq, Outcome.mapError_ok,
    Outcome.ok_bind]

theorem unlock_of_unlocks
    (hpassword : Password.nonEmpty (keyConfig.bind (·.password)) = password)
    (h : entry.Unlocks password material) :
    (unlock identity entry keyConfig).outcome = .ok material := by
  obtain ⟨encoded, hopens, hkey⟩ := h
  rw [unlock_of_opens hpassword hopens, hkey, Outcome.mapError_ok]

theorem unlock_of_refuses
    (hpassword : Password.nonEmpty (keyConfig.bind (·.password)) = password)
    (h : entry.Refuses identity password e) :
    (unlock identity entry keyConfig).outcome = .error e := by
  have hpresent := Password.nonEmpty_of_nonEmpty_eq hpassword
  cases h with
  | passwordMissing hprotection =>
    have hprotected : entry.isProtected = true := congrArg Option.isSome hprotection
    apply unlock_of_mismatch hpassword
    rw [ProtectionState.mismatch_classify _ hpresent, hprotected]
  | keyNotProtected hprotection =>
    have hplain : entry.isProtected = false := congrArg Option.isSome hprotection
    apply unlock_of_mismatch hpassword
    rw [ProtectionState.mismatch_classify _ hpresent, hplain]
  | @wrongPassword _ password hprotection hwell hmaterial =>
    have hopened := KeyDerivation.openData_eq_ok_none_iff.mpr ⟨hwell, hmaterial⟩
    have hencoded : entry.encodedKey (some password) = .error (.keyPassword entry.keyAlias) := by
      simp only [ImageEntry.encodedKey, hprotection, hopened, Outcome.ok_bind]
    exact unlock_of_encodedKey_error hpassword (congrArg Option.isSome hprotection) hencoded
  | @field _ password cause hprotection hdefect =>
    have hencoded : entry.encodedKey (some password) = .error cause := by
      simp only [ImageEntry.encodedKey, hprotection, hdefect.openData_eq, Outcome.error_bind]
    rw [unlock_of_encodedKey_error hpassword (congrArg Option.isSome hprotection) hencoded,
      hdefect.entryError_eq]
  | material hprotection hmaterial =>
    have hencoded : entry.encodedKey none = .error (.notBase64 .material) := by
      simp only [ImageEntry.encodedKey, hprotection,
        ImageField.decode_of_not_isEncoded _ hmaterial]
    exact unlock_of_encodedKey_error hpassword (congrArg Option.isSome hprotection) hencoded
  | key hopens hkey => rw [unlock_of_opens hpassword hopens, hkey, Outcome.mapError_error]

end LocalStore

end CipherVault
