import CipherVault.Proofs.Keystore.UnlockAll
/-!
# The first defect of an image

An image opens if its record, format, version, sealed fields, password, entries and aliases are all
in order.  Each of these is judged alone here, and the error of an image that does not open is that
of the first one out of order.
-/

namespace CipherVault

namespace SealedImage

/-- All that an image has to satisfy: its bytes are the record of an image, and the payload is the
sealed list of its entries. -/
structure Admits (bytes : Bytes) (password : Password) (image : SealedImage) (data : Bytes)
    (entries : List ImageEntry) : Prop where
  envelope : read bytes = .ok image
  format : Text.upperAscii image.format = "CKS"
  version : image.version = 1
  iterations : image.derivation.iterations ≠ 0
  salt : Base64.IsEncoded image.derivation.salt
  nonce : ∃ bs, image.nonce = Base64.encode bs ∧ bs.length = 12
  payload : Base64.IsEncoded image.payload
  authentic : image.derivation.IsAuthentic password.bytes image.nonce image.payload
  opened : image.derivation.IsSealed password.bytes image.nonce image.payload data
  listed : readEntries data = .ok entries
  distinct : (entries.map (·.keyAlias)).Nodup

/-- The conditions one by one, in the order of the reader. -/
inductive Condition where
  | envelope
  | format
  | version
  | iterations
  | salt
  | nonce
  | payload
  | authentic
  | listed
  | distinct
deriving DecidableEq, Repr

def Condition.position : Condition → Nat
  | envelope => 0
  | format => 1
  | version => 2
  | iterations => 3
  | salt => 4
  | nonce => 5
  | payload => 6
  | authentic => 7
  | listed => 8
  | distinct => 9

/-- A condition that does not hold, and the error that tells so.  A condition is judged alone: of
those before it, it takes no more than what it speaks of. -/
inductive Breaks (bytes : Bytes) (password : Password) : Condition → ImageError → Prop
  | envelope (h : ∀ image, read bytes ≠ .ok image) : Breaks bytes password .envelope .notJson
  | format {image : SealedImage} (hread : read bytes = .ok image)
      (h : Text.upperAscii image.format ≠ "CKS") :
    Breaks bytes password .format (.format image.format)
  | version {image : SealedImage} (hread : read bytes = .ok image) (h : image.version ≠ 1) :
    Breaks bytes password .version (.version image.version.toNat)
  | iterations {image : SealedImage} (hread : read bytes = .ok image)
      (h : image.derivation.iterations = 0) :
    Breaks bytes password .iterations .noIterations
  | salt {image : SealedImage} (hread : read bytes = .ok image)
      (h : ¬Base64.IsEncoded image.derivation.salt) :
    Breaks bytes password .salt (.notBase64 .salt)
  | nonce {image : SealedImage} (hread : read bytes = .ok image)
      (h : ¬Base64.IsEncoded image.nonce) :
    Breaks bytes password .nonce (.notBase64 .nonce)
  | nonceLength {image : SealedImage} {bs : Bytes} (hread : read bytes = .ok image)
      (hnonce : image.nonce = Base64.encode bs) (h : bs.length ≠ 12) :
    Breaks bytes password .nonce (.length .nonce 12 bs.length)
  | payload {image : SealedImage} (hread : read bytes = .ok image)
      (h : ¬Base64.IsEncoded image.payload) :
    Breaks bytes password .payload (.notBase64 .payload)
  | authentic {image : SealedImage} (hread : read bytes = .ok image)
      (h : ¬image.derivation.IsAuthentic password.bytes image.nonce image.payload) :
    Breaks bytes password .authentic .storePassword
  | listed {image : SealedImage} {data : Bytes} (hread : read bytes = .ok image)
      (hopened : image.derivation.IsSealed password.bytes image.nonce image.payload data)
      (h : ∀ entries, readEntries data ≠ .ok entries) :
    Breaks bytes password .listed .notJson
  | distinct {image : SealedImage} {data : Bytes} {entries : List ImageEntry}
      {before after : List String} {keyAlias : String} (hread : read bytes = .ok image)
      (hopened : image.derivation.IsSealed password.bytes image.nonce image.payload data)
      (hlisted : readEntries data = .ok entries)
      (haliases : entries.map (·.keyAlias) = before ++ keyAlias :: after)
      (hfirst : before.Nodup) (h : keyAlias ∈ before) :
    Breaks bytes password .distinct (.duplicateAlias keyAlias)

/-- No condition before this one is broken. -/
def Reaches (bytes : Bytes) (password : Password) (condition : Condition) : Prop :=
  ∀ earlier e, earlier.position < condition.position → ¬Breaks bytes password earlier e

/-- The first condition that is broken. -/
structure FailsAt (bytes : Bytes) (password : Password) (condition : Condition) (e : ImageError) :
    Prop where
  breaks : Breaks bytes password condition e
  reaches : Reaches bytes password condition

variable {bytes : Bytes} {password : Password} {image : SealedImage} {data : Bytes}
  {entries : List ImageEntry} {condition : Condition} {e : ImageError}

/-- Of the conditions that are broken one is the first. -/
theorem Breaks.exists_failsAt {condition : Condition} {e : ImageError}
    (h : Breaks bytes password condition e) : ∃ first e, FailsAt bytes password first e := by
  by_cases hreaches : Reaches bytes password condition
  · exact ⟨condition, e, h, hreaches⟩
  · simp only [Reaches, Classical.not_forall, Classical.not_not] at hreaches
    obtain ⟨earlier, cause, hbefore, hbreaks⟩ := hreaches
    exact hbreaks.exists_failsAt
termination_by condition.position

/-- What holds before a condition that is reached.  Each fact is there as soon as its own condition
lies behind. -/
structure Passed (image : SealedImage) (condition : Condition) : Prop where
  format : 1 < condition.position → Text.upperAscii image.format = imageFormat
  version : 2 < condition.position → image.version = imageVersion
  iterations : 3 < condition.position → image.derivation.iterations ≠ 0
  salt : 4 < condition.position → Base64.IsEncoded image.derivation.salt
  nonce : 5 < condition.position →
    ∃ bs, image.nonce = Base64.encode bs ∧ bs.length = nonceLength
  payload : 6 < condition.position → Base64.IsEncoded image.payload

theorem Reaches.passed (h : Reaches bytes password condition) (hread : read bytes = .ok image) :
    Passed image condition where
  format hbehind :=
    Classical.byContradiction fun hne => h .format _ hbehind (.format hread hne)
  version hbehind :=
    Classical.byContradiction fun hne => h .version _ hbehind (.version hread hne)
  iterations hbehind hzero := h .iterations _ hbehind (.iterations hread hzero)
  salt hbehind :=
    Classical.byContradiction fun hne => h .salt _ hbehind (.salt hread hne)
  nonce hbehind := by
    by_cases hencoded : Base64.IsEncoded image.nonce
    case neg => exact absurd (.nonce hread hencoded) (h .nonce _ hbehind)
    obtain ⟨bs, hbs⟩ := hencoded
    by_cases hlength : bs.length = nonceLength
    · exact ⟨bs, hbs, hlength⟩
    · exact absurd (.nonceLength hread hbs hlength) (h .nonce _ hbehind)
  payload hbehind :=
    Classical.byContradiction fun hne => h .payload _ hbehind (.payload hread hne)

theorem Passed.wellFormed (h : Passed image condition) (hbehind : 6 < condition.position) :
    image.derivation.WellFormed image.nonce image.payload :=
  ⟨h.iterations (by omega), h.salt (by omega), h.nonce (by omega), h.payload hbehind⟩

/-! ## What the reader does -/

theorem read_eq_error (h : ∀ image, read bytes ≠ .ok image) : read bytes = .error .notJson := by
  rw [read]
  split
  · next image hread => exact absurd (by rw [read, hread]) (h image)
  · rfl

theorem readEntries_eq_error (h : ∀ entries, readEntries data ≠ .ok entries) :
    readEntries data = .error .notJson := by
  rw [readEntries]
  split
  · next entries hread => exact absurd (by rw [readEntries, hread]) (h entries)
  · rfl

section Header

variable (hread : read bytes = .ok image) (hformat : Text.upperAscii image.format = imageFormat)
  (hversion : image.version = imageVersion)

include hread hformat hversion

/-- Behind the header it is for the sealed data to open. -/
theorem openEntries_of_header :
    openEntries bytes password = (do
      match ← image.derivation.openData password.bytes image.nonce image.payload with
      | none => .error .storePassword
      | some data => do
        let entries ← readEntries data
        match ImageEntry.repeated? [] (entries.map (·.keyAlias)) with
        | some keyAlias => .error (.duplicateAlias keyAlias)
        | none => .ok entries) := by
  rw [openEntries, hread, Outcome.ok_bind]
  exact (if_neg (not_not_intro hformat)).trans (if_neg (not_not_intro hversion))

theorem openEntries_of_fieldDefect
    (hdefect : image.derivation.FieldDefect image.nonce image.payload e) :
    openEntries bytes password = .error e := by
  rw [openEntries_of_header hread hformat hversion, hdefect.openData_eq, Outcome.error_bind]

/-- The store's password does not open an image whose fields are in order just when the tag of its
payload is another. -/
theorem openEntries_eq_storePassword_iff
    (hwell : image.derivation.WellFormed image.nonce image.payload) :
    openEntries bytes password = .error .storePassword ↔
      ¬image.derivation.IsAuthentic password.bytes image.nonce image.payload := by
  rw [← hwell.openData_eq_ok_none_iff, openEntries_of_header hread hformat hversion]
  obtain ⟨opened, hopened⟩ := hwell.exists_openData password.bytes
  rw [hopened, Outcome.ok_bind]
  cases opened with
  | none => simp
  | some data =>
    refine iff_of_false (fun h => ?_) nofun
    obtain hlist | ⟨entries, -, hrepeated⟩ := Outcome.bind_eq_error.mp h
    · rw [readEntries] at hlist
      split at hlist <;> cases hlist
    · split at hrepeated <;> cases hrepeated

/-- Behind sealed data that opens it is for the entries. -/
theorem openEntries_of_isSealed
    (hopened : image.derivation.IsSealed password.bytes image.nonce image.payload data) :
    openEntries bytes password = (do
      let entries ← readEntries data
      match ImageEntry.repeated? [] (entries.map (·.keyAlias)) with
      | some keyAlias => .error (.duplicateAlias keyAlias)
      | none => .ok entries) := by
  rw [openEntries_of_header hread hformat hversion,
    KeyDerivation.openData_eq_ok_some_iff_isSealed.mpr hopened, Outcome.ok_bind]

end Header

/-- Every image that satisfies the conditions opens to its entries. -/
theorem Admits.openEntries_eq (h : Admits bytes password image data entries) :
    openEntries bytes password = .ok entries := by
  have hfresh : ImageEntry.repeated? [] (entries.map (·.keyAlias)) = none :=
    ImageEntry.repeated?_eq_none_iff.mpr ⟨fun _ _ => List.not_mem_nil, h.distinct⟩
  rw [openEntries_of_isSealed h.envelope h.format h.version h.opened, h.listed, Outcome.ok_bind,
    hfresh]

theorem Passed.openEntries_of_fieldDefect (h : Passed image condition)
    (hread : read bytes = .ok image) (hbehind : 2 < condition.position)
    (hdefect : image.derivation.FieldDefect image.nonce image.payload e) :
    openEntries bytes password = .error e :=
  SealedImage.openEntries_of_fieldDefect hread (h.format (by omega)) (h.version hbehind) hdefect

/-- Every other image does not open, with the error of the first condition that it breaks. -/
theorem FailsAt.openEntries_eq (h : FailsAt bytes password condition e) :
    openEntries bytes password = .error e := by
  obtain ⟨hbreaks, hreaches⟩ := h
  cases hbreaks with
  | envelope hnone => rw [openEntries, read_eq_error hnone, Outcome.error_bind]
  | @format image hread hformat =>
    have hother : Text.upperAscii image.format ≠ imageFormat := hformat
    rw [openEntries, hread, Outcome.ok_bind, if_pos hother]
  | @version image hread hversion =>
    have hpassed := hreaches.passed hread
    have hother : image.version ≠ imageVersion := hversion
    rw [openEntries, hread, Outcome.ok_bind, if_neg (not_not_intro (hpassed.format (by decide))),
      if_pos hother]
  | iterations hread hzero =>
    have hpassed := hreaches.passed hread
    exact hpassed.openEntries_of_fieldDefect hread (by decide) (.noIterations hzero)
  | salt hread hsalt =>
    have hpassed := hreaches.passed hread
    exact hpassed.openEntries_of_fieldDefect hread (by decide)
      (.salt (hpassed.iterations (by decide)) hsalt)
  | nonce hread hnonce =>
    have hpassed := hreaches.passed hread
    exact hpassed.openEntries_of_fieldDefect hread (by decide)
      (.nonce (hpassed.iterations (by decide)) (hpassed.salt (by decide)) hnonce)
  | nonceLength hread hnonce hlength =>
    have hpassed := hreaches.passed hread
    exact hpassed.openEntries_of_fieldDefect hread (by decide)
      (.nonceLength (hpassed.iterations (by decide)) (hpassed.salt (by decide)) hnonce hlength)
  | payload hread hpayload =>
    have hpassed := hreaches.passed hread
    obtain ⟨bs, hnonce, hlength⟩ := hpassed.nonce (by decide)
    exact hpassed.openEntries_of_fieldDefect hread (by decide)
      (.payload (hpassed.iterations (by decide)) (hpassed.salt (by decide)) hnonce hlength hpayload)
  | authentic hread hauthentic =>
    have hpassed := hreaches.passed hread
    exact (openEntries_eq_storePassword_iff hread (hpassed.format (by decide))
      (hpassed.version (by decide)) (hpassed.wellFormed (by decide))).mpr hauthentic
  | listed hread hopened hnone =>
    have hpassed := hreaches.passed hread
    rw [openEntries_of_isSealed hread (hpassed.format (by decide)) (hpassed.version (by decide))
      hopened, readEntries_eq_error hnone, Outcome.error_bind]
  | @distinct _ _ entries before after keyAlias hread hopened hlisted haliases hfirst hrepeated =>
    have hpassed := hreaches.passed hread
    have hfound : ImageEntry.repeated? [] (entries.map (·.keyAlias)) = some keyAlias := by
      rw [ImageEntry.repeated?_eq_some_iff]
      refine ⟨before, after, haliases, ?_, .inr hrepeated⟩
      exact ImageEntry.repeated?_eq_none_iff.mpr ⟨fun _ _ => List.not_mem_nil, hfirst⟩
    rw [openEntries_of_isSealed hread (hpassed.format (by decide)) (hpassed.version (by decide))
      hopened, hlisted, Outcome.ok_bind, hfound]

/-- An image that breaks no condition satisfies them all. -/
theorem exists_admits (h : ∀ condition e, ¬Breaks bytes password condition e) :
    ∃ image data entries, Admits bytes password image data entries := by
  have hreaches : Reaches bytes password .distinct := fun earlier cause _ => h earlier cause
  cases hread : read bytes with
  | error cause => exact absurd (.envelope fun image => by rw [hread]; nofun) (h .envelope _)
  | ok image =>
    have hpassed := hreaches.passed hread
    have hwell := hpassed.wellFormed (by decide)
    have hauthentic : image.derivation.IsAuthentic password.bytes image.nonce image.payload :=
      Classical.byContradiction fun hne => h .authentic _ (.authentic hread hne)
    obtain ⟨data, hopened⟩ := hwell.exists_isSealed_iff.mpr hauthentic
    cases hlisted : readEntries data with
    | error cause =>
      exact absurd (.listed hread hopened fun entries => by rw [hlisted]; nofun) (h .listed _)
    | ok entries =>
      cases hrepeated : ImageEntry.repeated? [] (entries.map (·.keyAlias)) with
      | some keyAlias =>
        obtain ⟨before, after, haliases, hfirst, hmem⟩ :=
          ImageEntry.repeated?_eq_some_iff.mp hrepeated
        have hmem : keyAlias ∈ before := hmem.resolve_left List.not_mem_nil
        have hnodup := (ImageEntry.repeated?_eq_none_iff.mp hfirst).2
        exact absurd (.distinct hread hopened hlisted haliases hnodup hmem) (h .distinct _)
      | none =>
        exact ⟨image, data, entries, hread, hpassed.format (by decide),
          hpassed.version (by decide), hwell.iterations, hwell.salt, hwell.nonce, hwell.payload,
          hauthentic, hopened, hlisted, (ImageEntry.repeated?_eq_none_iff.mp hrepeated).2⟩

theorem admits_or_failsAt (bytes : Bytes) (password : Password) :
    (∃ image data entries, Admits bytes password image data entries) ∨
      ∃ condition e, FailsAt bytes password condition e := by
  by_cases h : ∃ condition e, Breaks bytes password condition e
  · obtain ⟨condition, e, hbreaks⟩ := h
    exact .inr hbreaks.exists_failsAt
  · simp only [not_exists] at h
    exact .inl (exists_admits h)

theorem openEntries_eq_ok_iff :
    openEntries bytes password = .ok entries ↔
      ∃ image data, Admits bytes password image data entries := by
  constructor
  · intro h
    obtain ⟨image, data, found, hadmits⟩ | ⟨condition, e, hfails⟩ :=
      admits_or_failsAt bytes password
    · obtain rfl := Except.ok.inj (hadmits.openEntries_eq.symm.trans h)
      exact ⟨image, data, hadmits⟩
    · cases hfails.openEntries_eq.symm.trans h
  · intro h
    obtain ⟨image, data, hadmits⟩ := h
    exact hadmits.openEntries_eq

theorem openEntries_eq_error_iff :
    openEntries bytes password = .error e ↔ ∃ condition, FailsAt bytes password condition e := by
  constructor
  · intro h
    obtain ⟨image, data, entries, hadmits⟩ | ⟨condition, cause, hfails⟩ :=
      admits_or_failsAt bytes password
    · cases hadmits.openEntries_eq.symm.trans h
    · obtain rfl := Except.error.inj (hfails.openEntries_eq.symm.trans h)
      exact ⟨condition, hfails⟩
  · intro h
    obtain ⟨condition, hfails⟩ := h
    exact hfails.openEntries_eq

end SealedImage

/-! ## Loading -/

/-- Entries are refused for the password of their key or for the keystore. -/
theorem ImageEntry.Refuses.badPassword_or_invalidKeystore {entry : ImageEntry} {identity : String}
    {password : Option Password} {e : KeyError} (h : entry.Refuses identity password e) :
    (∃ mismatch, e = .badPassword entry.keyAlias mismatch) ∨
      ∃ fault, e = .invalidKeystore identity fault := by
  cases h with
  | passwordMissing | keyNotProtected | wrongPassword => exact .inl ⟨_, rfl⟩
  | field | material | key => exact .inr ⟨_, rfl⟩

namespace LocalStore

variable {config : LocalKeystoreConfig} {source : ImageSource} {e : KeyError}

theorem load_of_locate_error (h : locate config source = .error e) :
    (load config source).outcome = .error e := by
  simp only [load, h, Traced.outcome_bind, Traced.outcome_ofExcept, Outcome.error_bind]

theorem load_of_unsupportedType (h : Text.upperAscii config.type ≠ imageFormat) :
    (load config source).outcome =
      .error (.invalidKeystore config.identity (.unsupportedType config.type)) :=
  load_of_locate_error (if_pos h)

theorem load_of_unreadable (htype : Text.upperAscii config.type = imageFormat)
    (h : source config.location = none) :
    (load config source).outcome =
      .error (.invalidKeystore config.identity (.unreadable config.location)) := by
  apply load_of_locate_error
  rw [locate, if_neg (not_not_intro htype), h]

/-- Loading fails for the password of a key or for the keystore, and for nothing else. -/
theorem badPassword_or_invalidKeystore_of_load (h : (load config source).outcome = .error e) :
    (∃ keyAlias mismatch, e = .badPassword keyAlias mismatch) ∨
      ∃ fault, e = .invalidKeystore config.identity fault := by
  by_cases htype : Text.upperAscii config.type = imageFormat
  case neg =>
    obtain rfl := Except.error.inj ((load_of_unsupportedType htype).symm.trans h)
    exact .inr ⟨_, rfl⟩
  cases hlocation : source config.location with
  | none =>
    obtain rfl := Except.error.inj ((load_of_unreadable htype hlocation).symm.trans h)
    exact .inr ⟨_, rfl⟩
  | some image =>
    cases hopened : SealedImage.openEntries image config.password with
    | error cause =>
      have hfails := load_of_openEntries_error htype hlocation hopened
      obtain rfl := Except.error.inj (hfails.symm.trans h)
      exact .inr ⟨_, rfl⟩
    | ok entries =>
      obtain ⟨_, entry, _, -, -, hrefused⟩ := (load_eq_error_iff htype hlocation hopened).mp h
      obtain ⟨mismatch, hkey⟩ | hfault := hrefused.badPassword_or_invalidKeystore
      · exact .inl ⟨entry.keyAlias, mismatch, hkey⟩
      · exact .inr hfault

/-- Images open exactly if they satisfy all conditions, and any other one yields the error of the
first condition that it breaks.  Loading reports that error, as it does an unsupported type before
it looks for the image and a location without one, for the configured keystore; and it reports no
error of key material, of the making of images or of remote keystores. -/
theorem opens_or_names_first_defect :
    (∀ bytes password,
      (∀ entries, SealedImage.openEntries bytes password = .ok entries ↔
        ∃ image data, SealedImage.Admits bytes password image data entries) ∧
      ∀ e, SealedImage.openEntries bytes password = .error e ↔
        ∃ condition, SealedImage.FailsAt bytes password condition e) ∧
    ∀ (config : LocalKeystoreConfig) (source : ImageSource),
      (Text.upperAscii config.type ≠ "CKS" → (load config source).outcome =
        .error (.invalidKeystore config.identity (.unsupportedType config.type))) ∧
      (Text.upperAscii config.type = "CKS" → source config.location = none →
        (load config source).outcome =
          .error (.invalidKeystore config.identity (.unreadable config.location))) ∧
      (∀ bytes condition e, Text.upperAscii config.type = "CKS" →
        source config.location = some bytes →
        SealedImage.FailsAt bytes config.password condition e →
        (load config source).outcome = .error (.invalidKeystore config.identity (.image e))) ∧
      ∀ e, (load config source).outcome = .error e → (∀ cause, e ≠ .invalidMaterial cause) ∧
        (∀ cause, e ≠ .imageEncoding cause) ∧ ∀ identity, e ≠ .remoteKeystore identity := by
  refine ⟨fun bytes password => ⟨fun entries => SealedImage.openEntries_eq_ok_iff,
    fun e => SealedImage.openEntries_eq_error_iff⟩, fun config source =>
    ⟨load_of_unsupportedType, load_of_unreadable, ?_, ?_⟩⟩
  · intro bytes condition e htype hlocation hfails
    exact load_of_openEntries_error htype hlocation hfails.openEntries_eq
  · intro e h
    obtain ⟨keyAlias, mismatch, rfl⟩ | ⟨fault, rfl⟩ := badPassword_or_invalidKeystore_of_load h
    · exact ⟨nofun, nofun, nofun⟩
    · exact ⟨nofun, nofun, nofun⟩

/-- An image without entries. -/
def emptyImage : SealedImage :=
  ⟨"CKS", 1, ⟨1, "AAAAAAAAAAAAAAAAAAAAAA=="⟩, "AAAAAAAAAAAAAAAA", "/JE4wrkPcuqjO7djiA2IZLW7"⟩

theorem openEntries_emptyImage :
    SealedImage.openEntries emptyImage.toJson.render ⟨"store"⟩ = .ok [] := by
  have hopened : emptyImage.derivation.openData (Password.bytes ⟨"store"⟩) emptyImage.nonce
      emptyImage.payload = .ok (some [91, 93]) :=
    Outcome.toOption_eq_some.mp (by decide +kernel)
  have hlisted : SealedImage.readEntries [91, 93] = .ok [] :=
    Outcome.toOption_eq_some.mp (by decide +kernel)
  rw [SealedImage.openEntries_of_isSealed (SealedImage.read_render _) (by decide) rfl
    (KeyDerivation.openData_eq_ok_some_iff_isSealed.mp hopened), hlisted, Outcome.ok_bind]
  rfl

theorem openEntries_emptyImage_other :
    SealedImage.openEntries emptyImage.toJson.render ⟨"other"⟩ = .error .storePassword := by
  have hopened : emptyImage.derivation.openData (Password.bytes ⟨"other"⟩) emptyImage.nonce
      emptyImage.payload = .ok none :=
    Outcome.toOption_eq_some.mp (by decide +kernel)
  rw [SealedImage.openEntries_of_header (SealedImage.read_render _) (by decide) rfl, hopened,
    Outcome.ok_bind]

/-- Of no iterations and a salt that is not base64, the first is reported; before both, the type of
the keystore and then that there is nothing at its location.  The image without entries is in order
under the password store, and another password is refused. -/
theorem names_first_of_four_defects :
    (load ⟨"main", "here", "JKS", .none, false, []⟩ ImageSource.empty).outcome =
        .error (.invalidKeystore "main" (.unsupportedType "JKS")) ∧
      (load ⟨"main", "here", "cks", .none, false, []⟩ ImageSource.empty).outcome =
        .error (.invalidKeystore "main" (.unreadable "here")) ∧
      (load ⟨"main", "here", "cks", .none, false, []⟩
          (fun _ => some (SealedImage.mk "Cks" 1 ⟨0, "?"⟩ "" "").toJson.render)).outcome =
        .error (.invalidKeystore "main" (.image .noIterations)) ∧
      (∃ image data, SealedImage.Admits emptyImage.toJson.render ⟨"store"⟩ image data []) ∧
      (load ⟨"main", "here", "cks", ⟨"other"⟩, false, []⟩
          (fun _ => some emptyImage.toJson.render)).outcome =
        .error (.invalidKeystore "main" (.image .storePassword)) := by
  obtain ⟨himages, hloads⟩ := opens_or_names_first_defect
  refine ⟨(hloads _ _).1 (by decide), (hloads _ _).2.1 (by decide) rfl, ?_, ?_, ?_⟩
  · have hopened : SealedImage.openEntries (SealedImage.mk "Cks" 1 ⟨0, "?"⟩ "" "").toJson.render
        .none = .error .noIterations :=
      SealedImage.openEntries_of_fieldDefect (SealedImage.read_render _) (by decide) rfl
        (.noIterations rfl)
    obtain ⟨condition, hfails⟩ := ((himages _ _).2 _).mp hopened
    exact (hloads _ _).2.2.1 _ condition _ (by decide) rfl hfails
  · exact ((himages _ _).1 _).mp openEntries_emptyImage
  · obtain ⟨condition, hfails⟩ := ((himages _ _).2 _).mp openEntries_emptyImage_other
    exact (hloads _ _).2.2.1 _ condition _ (by decide) rfl hfails

end LocalStore

end CipherVault
