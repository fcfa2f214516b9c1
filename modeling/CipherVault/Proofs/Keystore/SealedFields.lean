import CipherVault.Proofs.Keystore.Image
/-!
# The fields of sealed data

A sealed payload comes with a number of iterations, a salt and a nonce.  Opening names the first
field that is out of order, whatever the password is; in order, the fields leave it to the password
whether the payload opens.
-/

namespace CipherVault

/-- A text that is the base64 of bytes. -/
def Base64.IsEncoded (text : String) : Prop :=
  ∃ bs, text = encode bs

theorem ImageField.decode_of_not_isEncoded {text : String} (field : ImageField)
    (h : ¬Base64.IsEncoded text) : field.decode text = .error (.notBase64 field) := by
  rw [decode]
  cases hdecode : Base64.decode text with
  | ok bs => exact absurd ⟨bs, Base64.decode_eq_ok_iff.mp hdecode⟩ h
  | error cause => rfl

namespace KeyDerivation

variable {derivation : KeyDerivation} {password data : Bytes} {nonce payload : String}
  {e : ImageError}

/-- All fields beside the password are in order. -/
structure WellFormed (derivation : KeyDerivation) (nonce payload : String) : Prop where
  iterations : derivation.iterations ≠ 0
  salt : Base64.IsEncoded derivation.salt
  nonce : ∃ bs, nonce = Base64.encode bs ∧ bs.length = nonceLength
  payload : Base64.IsEncoded payload

/-- The first field that is out of order, and the error that names it. -/
inductive FieldDefect (derivation : KeyDerivation) (nonce payload : String) :
    ImageError → Prop where
  | noIterations (hiterations : derivation.iterations = 0) :
    FieldDefect derivation nonce payload .noIterations
  | salt (hiterations : derivation.iterations ≠ 0) (hsalt : ¬Base64.IsEncoded derivation.salt) :
    FieldDefect derivation nonce payload (.notBase64 .salt)
  | nonce (hiterations : derivation.iterations ≠ 0) (hsalt : Base64.IsEncoded derivation.salt)
      (hnonce : ¬Base64.IsEncoded nonce) :
    FieldDefect derivation nonce payload (.notBase64 .nonce)
  | nonceLength {bs : Bytes} (hiterations : derivation.iterations ≠ 0)
      (hsalt : Base64.IsEncoded derivation.salt) (hnonce : nonce = Base64.encode bs)
      (hlength : bs.length ≠ nonceLength) :
    FieldDefect derivation nonce payload (.length .nonce nonceLength bs.length)
  | payload {bs : Bytes} (hiterations : derivation.iterations ≠ 0)
      (hsalt : Base64.IsEncoded derivation.salt) (hnonce : nonce = Base64.encode bs)
      (hlength : bs.length = nonceLength) (hpayload : ¬Base64.IsEncoded payload) :
    FieldDefect derivation nonce payload (.notBase64 .payload)

/-- The payload is what sealing the data under the password and the nonce yields. -/
def IsSealed (derivation : KeyDerivation) (password : Bytes) (nonce payload : String)
    (data : Bytes) : Prop :=
  ∃ bs, nonce = Base64.encode bs ∧ bs.length = nonceLength ∧
    derivation.sealData password bs data = .ok payload

theorem wellFormed_or_fieldDefect (derivation : KeyDerivation) (nonce payload : String) :
    derivation.WellFormed nonce payload ∨ ∃ e, derivation.FieldDefect nonce payload e := by
  by_cases hiterations : derivation.iterations = 0
  · exact .inr ⟨_, .noIterations hiterations⟩
  by_cases hsalt : Base64.IsEncoded derivation.salt
  case neg => exact .inr ⟨_, .salt hiterations hsalt⟩
  by_cases hnonce : Base64.IsEncoded nonce
  case neg => exact .inr ⟨_, .nonce hiterations hsalt hnonce⟩
  obtain ⟨bs, hnonce⟩ := hnonce
  by_cases hlength : bs.length = nonceLength
  case neg => exact .inr ⟨_, .nonceLength hiterations hsalt hnonce hlength⟩
  by_cases hpayload : Base64.IsEncoded payload
  case neg => exact .inr ⟨_, .payload hiterations hsalt hnonce hlength hpayload⟩
  exact .inl ⟨hiterations, hsalt, ⟨bs, hnonce, hlength⟩, hpayload⟩

theorem exists_derive (hiterations : derivation.iterations ≠ 0)
    (hsalt : Base64.IsEncoded derivation.salt) (password : Bytes) :
    ∃ key, derivation.derive password = .ok key := by
  obtain ⟨salt, hsalt⟩ := hsalt
  rw [derive, if_neg hiterations, hsalt, ImageField.decode_encode]
  exact ⟨_, rfl⟩

/-- A defect is named whatever the password is. -/
theorem FieldDefect.openData_eq (h : derivation.FieldDefect nonce payload e) (password : Bytes) :
    derivation.openData password nonce payload = .error e := by
  cases h with
  | noIterations hiterations => rw [openData, derive, if_pos hiterations, Outcome.error_bind]
  | salt hiterations hsalt =>
    rw [openData, derive, if_neg hiterations, ImageField.decode_of_not_isEncoded _ hsalt]
    rfl
  | nonce hiterations hsalt hnonce =>
    obtain ⟨key, hkey⟩ := exists_derive hiterations hsalt password
    rw [openData, hkey, Outcome.ok_bind, ImageField.decode_of_not_isEncoded _ hnonce,
      Outcome.error_bind]
  | nonceLength hiterations hsalt hnonce hlength =>
    obtain ⟨key, hkey⟩ := exists_derive hiterations hsalt password
    rw [openData, hkey, hnonce, Outcome.ok_bind, ImageField.decode_encode, Outcome.ok_bind,
      if_pos hlength]
  | payload hiterations hsalt hnonce hlength hpayload =>
    obtain ⟨key, hkey⟩ := exists_derive hiterations hsalt password
    rw [openData, hkey, hnonce, Outcome.ok_bind, ImageField.decode_encode, Outcome.ok_bind,
      if_neg (not_not_intro hlength), ImageField.decode_of_not_isEncoded _ hpayload,
      Outcome.error_bind]

theorem WellFormed.exists_openData (h : derivation.WellFormed nonce payload) (password : Bytes) :
    ∃ opened, derivation.openData password nonce payload = .ok opened := by
  obtain ⟨key, hkey⟩ := exists_derive h.iterations h.salt password
  obtain ⟨bs, hnonce, hlength⟩ := h.nonce
  obtain ⟨sealedData, hpayload⟩ := h.payload
  obtain ⟨schedule, hschedule⟩ := exists_schedule hkey
  simp only [openData, hkey, hnonce, hpayload, hschedule, ImageField.decode_encode, Outcome.ok_bind,
    if_neg (not_not_intro hlength)]
  exact ⟨_, rfl⟩

/-- Fields that open under any password are in order. -/
theorem wellFormed_of_openData {opened : Option Bytes}
    (h : derivation.openData password nonce payload = .ok opened) :
    derivation.WellFormed nonce payload := by
  obtain hwell | ⟨e, hdefect⟩ := wellFormed_or_fieldDefect derivation nonce payload
  · exact hwell
  · cases (hdefect.openData_eq password).symm.trans h

theorem openData_eq_ok_some_iff_isSealed :
    derivation.openData password nonce payload = .ok (some data) ↔
      derivation.IsSealed password nonce payload data := by
  constructor
  · intro h
    obtain ⟨bs, rfl, hlength⟩ := (wellFormed_of_openData h).nonce
    exact ⟨bs, rfl, hlength, (openData_eq_ok_some_iff hlength).mp h⟩
  · intro h
    obtain ⟨bs, rfl, hlength, hsealed⟩ := h
    exact (openData_eq_ok_some_iff hlength).mpr hsealed

theorem IsSealed.wellFormed (h : derivation.IsSealed password nonce payload data) :
    derivation.WellFormed nonce payload :=
  wellFormed_of_openData (openData_eq_ok_some_iff_isSealed.mpr h)

/-- A password opens nothing if the fields are in order and no data sealed under it yields them. -/
theorem openData_eq_ok_none_iff :
    derivation.openData password nonce payload = .ok none ↔
      derivation.WellFormed nonce payload ∧
        ∀ data, ¬derivation.IsSealed password nonce payload data := by
  constructor
  · intro h
    refine ⟨wellFormed_of_openData h, fun data hsealed => ?_⟩
    cases h.symm.trans (openData_eq_ok_some_iff_isSealed.mpr hsealed)
  · intro h
    obtain ⟨hwell, hnothing⟩ := h
    obtain ⟨opened, hopened⟩ := hwell.exists_openData password
    cases opened with
    | none => exact hopened
    | some data => exact absurd (openData_eq_ok_some_iff_isSealed.mp hopened) (hnothing data)

/-- The payload ends in the tag that the key derived from the password gives to what precedes it. -/
def IsAuthentic (derivation : KeyDerivation) (password : Bytes) (nonce payload : String) : Prop :=
  ∃ key schedule bs ciphertext, derivation.derive password = .ok key ∧
    Aes.Schedule.ofKey? key = some schedule ∧ nonce = Base64.encode bs ∧
    payload = Base64.encode (ciphertext ++ Gcm.tag schedule bs ciphertext)

/-- Whatever ends in the right tag was sealed: the ciphertext is that of its own decryption. -/
theorem WellFormed.exists_isSealed_iff (h : derivation.WellFormed nonce payload) :
    (∃ data, derivation.IsSealed password nonce payload data) ↔
      derivation.IsAuthentic password nonce payload := by
  constructor
  · intro hsealed
    obtain ⟨data, bs, hnonce, hlength, hpayload⟩ := hsealed
    obtain ⟨key, hkey, hpayload⟩ := Outcome.bind_eq_ok.mp hpayload
    obtain ⟨schedule, hschedule⟩ := exists_schedule hkey
    rw [hschedule] at hpayload
    simp only [Gcm.encrypt, if_pos hlength, Except.ok.injEq] at hpayload
    exact ⟨key, schedule, bs, _, hkey, hschedule, hnonce, hpayload.symm⟩
  · intro hauthentic
    obtain ⟨key, schedule, bs, ciphertext, hkey, hschedule, hnonce, hpayload⟩ := hauthentic
    obtain ⟨found, hfound, hlength⟩ := h.nonce
    have hdecoded := Base64.decode_eq_ok_iff.mpr (hnonce.symm.trans hfound)
    rw [Base64.decode_encode] at hdecoded
    obtain rfl := Except.ok.inj hdecoded
    refine ⟨Gcm.crypt schedule bs ciphertext, bs, hnonce, hlength, ?_⟩
    simp only [sealData, hkey, hschedule, Gcm.encrypt, if_pos hlength, Gcm.crypt_crypt,
      Outcome.ok_bind, hpayload]

/-- A password does not open a payload whose tag is another than its own. -/
theorem WellFormed.openData_eq_ok_none_iff (h : derivation.WellFormed nonce payload) :
    derivation.openData password nonce payload = .ok none ↔
      ¬derivation.IsAuthentic password nonce payload := by
  rw [KeyDerivation.openData_eq_ok_none_iff, ← h.exists_isSealed_iff, not_exists]
  exact and_iff_right h

end KeyDerivation

end CipherVault
