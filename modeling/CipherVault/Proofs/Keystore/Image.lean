import CipherVault.Keystore.Image
import CipherVault.Proofs.Aead
import CipherVault.Proofs.Base64
import CipherVault.Proofs.Json.Reader
import CipherVault.Proofs.Outcome
/-!
# Images are read as they are written

The records of an image survive JSON, and sealed data opens under the password and nonce under which
it was sealed.
-/

namespace CipherVault

open Json

/-! ## Records -/

theorem KeyDerivation.written_toJson (derivation : KeyDerivation) : Written derivation.toJson := by
  apply Written.ofMembers
  simp only [List.forall_mem_cons]
  exact ⟨.ofNat _, .ofString _, List.forall_mem_nil _⟩

@[simp]
theorem KeyDerivation.ofJson?_toJson (derivation : KeyDerivation) :
    ofJson? derivation.toJson = some derivation := by
  simp [ofJson?, toJson, Value.fields?_ofMembers, Value.theMember?, Value.required?]

theorem EntryProtection.written_toJson (protection : EntryProtection) :
    Written protection.toJson := by
  apply Written.ofMembers
  simp only [List.forall_mem_cons]
  exact ⟨protection.derivation.written_toJson, .ofString _, List.forall_mem_nil _⟩

@[simp]
theorem EntryProtection.ofJson?_toJson (protection : EntryProtection) :
    ofJson? protection.toJson = some protection := by
  simp [ofJson?, toJson, Value.fields?_ofMembers, Value.theMember?, Value.required?]

@[simp]
theorem KeyKind.ofJson?_ofString (kind : KeyKind) : ofJson? (.ofString kind.name) = some kind := by
  simp [ofJson?, Value.ofString]

/-- A protection is an object, so it is not taken for an absent one. -/
theorem EntryProtection.optional?_toJson (protection : EntryProtection) :
    Value.optional? ofJson? protection.toJson = some (some protection) := by
  have hobject : Value.optional? ofJson? protection.toJson =
      (ofJson? protection.toJson).map some := rfl
  rw [hobject, ofJson?_toJson]
  rfl

theorem ImageEntry.written_toJson (entry : ImageEntry) : Written entry.toJson := by
  apply Written.ofMembers
  cases entry.protection with
  | none =>
    simp only [List.append_nil, List.cons_append, List.nil_append, List.forall_mem_cons]
    exact ⟨.ofString _, .ofString _, .ofString _, List.forall_mem_nil _⟩
  | some protection =>
    simp only [List.cons_append, List.nil_append, List.forall_mem_cons]
    exact ⟨.ofString _, .ofString _, protection.written_toJson, .ofString _, List.forall_mem_nil _⟩

@[simp]
theorem ImageEntry.ofJson?_toJson (entry : ImageEntry) : ofJson? entry.toJson = some entry := by
  obtain ⟨keyAlias, kind, protection, material⟩ := entry
  cases protection with
  | none =>
    simp [ofJson?, toJson, Value.fields?_ofMembers, Value.theMember?, Value.required?,
      Value.defaulted?]
  | some protection =>
    simp [ofJson?, toJson, Value.fields?_ofMembers, Value.theMember?, Value.required?,
      Value.defaulted?, EntryProtection.optional?_toJson]

theorem SealedImage.written_toJson (image : SealedImage) : Written image.toJson := by
  apply Written.ofMembers
  simp only [List.forall_mem_cons]
  exact ⟨.ofString _, .ofNat _, image.derivation.written_toJson, .ofString _, .ofString _,
    List.forall_mem_nil _⟩

@[simp]
theorem SealedImage.ofJson?_toJson (image : SealedImage) : ofJson? image.toJson = some image := by
  simp [ofJson?, toJson, Value.fields?_ofMembers, Value.theMember?, Value.required?]

@[simp]
theorem SealedImage.read_render (image : SealedImage) :
    SealedImage.read image.toJson.render = .ok image := by
  rw [SealedImage.read, read?_render image.written_toJson, Option.bind_some, ofJson?_toJson]

/-- The list of entries that a payload holds. -/
@[simp]
theorem SealedImage.readEntries_render (entries : List ImageEntry) :
    readEntries (Value.array (entries.map ImageEntry.toJson)).render = .ok entries := by
  have hwritten : Written (.array (entries.map ImageEntry.toJson)) := by
    apply Written.array
    intro value hvalue
    obtain ⟨entry, _, rfl⟩ := List.mem_map.mp hvalue
    exact entry.written_toJson
  rw [readEntries, read?_render hwritten, Option.bind_some,
    Value.list?_map ImageEntry.ofJson?_toJson]

theorem ImageEntry.repeated?_eq_none_iff {seen aliases : List String} :
    repeated? seen aliases = none ↔
      (∀ keyAlias ∈ aliases, keyAlias ∉ seen) ∧ aliases.Nodup := by
  induction aliases generalizing seen with
  | nil => simp [repeated?]
  | cons first rest ih =>
    rw [repeated?, List.forall_mem_cons, List.nodup_cons]
    split
    · next hseen => simp [hseen]
    · next hseen =>
      rw [ih]
      simp only [List.mem_cons, not_or]
      constructor
      · intro h
        obtain ⟨hfresh, hnodup⟩ := h
        exact ⟨⟨hseen, fun keyAlias hmem => (hfresh keyAlias hmem).2⟩,
          fun hmem => (hfresh first hmem).1 rfl, hnodup⟩
      · intro h
        obtain ⟨⟨_, hfresh⟩, habsent, hnodup⟩ := h
        refine ⟨fun keyAlias hmem => ⟨?_, hfresh keyAlias hmem⟩, hnodup⟩
        intro heq
        subst heq
        exact habsent hmem

theorem ImageEntry.repeated?_append (seen left right : List String) :
    repeated? seen (left ++ right) =
      (repeated? seen left).or (repeated? (left.reverse ++ seen) right) := by
  induction left generalizing seen with
  | nil => rfl
  | cons first rest ih =>
    rw [List.cons_append, repeated?, repeated?]
    split
    · rfl
    · rw [ih, List.reverse_cons, List.append_assoc]
      rfl

/-- What is found is the first alias that stood before. -/
theorem ImageEntry.repeated?_eq_some_iff {seen aliases : List String} {keyAlias : String} :
    repeated? seen aliases = some keyAlias ↔
      ∃ before after, aliases = before ++ keyAlias :: after ∧ repeated? seen before = none ∧
        (keyAlias ∈ seen ∨ keyAlias ∈ before) := by
  constructor
  · intro h
    induction aliases generalizing seen with
    | nil => cases h
    | cons first rest ih =>
      rw [repeated?] at h
      split at h
      · next hseen =>
        cases h
        exact ⟨[], rest, rfl, rfl, .inl hseen⟩
      · next hfirst =>
        obtain ⟨before, after, rfl, hfresh, hrepeated⟩ := ih h
        refine ⟨first :: before, after, rfl, ?_, ?_⟩
        · rw [repeated?, if_neg hfirst, hfresh]
        · simpa only [List.mem_cons, or_left_comm, or_assoc] using hrepeated
  · intro h
    obtain ⟨before, after, rfl, hfresh, hrepeated⟩ := h
    have hseen : keyAlias ∈ before.reverse ++ seen := by
      simpa only [List.mem_append, List.mem_reverse, or_comm] using hrepeated
    rw [repeated?_append, hfresh, Option.none_or, repeated?, if_pos hseen]

/-! ## Sealed data -/

@[simp]
theorem ImageField.decode_encode (field : ImageField) (bs : Bytes) :
    field.decode (Base64.encode bs) = .ok bs := by
  rw [decode, Base64.decode_encode]
  rfl

theorem ImageField.decode_eq_ok_iff {field : ImageField} {text : String} {bs : Bytes} :
    field.decode text = .ok bs ↔ text = Base64.encode bs := by
  rw [decode, Outcome.mapError_eq_ok, Base64.decode_eq_ok_iff]

namespace KeyDerivation

variable {derivation : KeyDerivation} {password nonce data : Bytes} {payload : String}

/-- Every derived key has the length of an AES-256 key. -/
theorem exists_schedule {key : Bytes} (h : derivation.derive password = .ok key) :
    ∃ schedule, Aes.Schedule.ofKey? key = some schedule := by
  rw [derive] at h
  split at h
  · cases h
  · obtain ⟨salt, _, hkey⟩ := Outcome.bind_eq_ok.mp h
    cases hkey
    exact ⟨_, if_pos (.inr (.inr (Pbkdf2.length_derive password salt _)))⟩

/-- Data opens to what was sealed under the same password and nonce, and to nothing else. -/
theorem openData_eq_ok_some_iff (hnonce : nonce.length = nonceLength) :
    derivation.openData password (Base64.encode nonce) payload = .ok (some data) ↔
      derivation.sealData password nonce data = .ok payload := by
  simp only [openData, sealData, ImageField.decode_encode, Outcome.ok_bind, hnonce, ne_eq,
    not_true_eq_false, ↓reduceIte]
  cases hkey : derivation.derive password with
  | error e => simp
  | ok key =>
    obtain ⟨schedule, hschedule⟩ := exists_schedule hkey
    simp only [Outcome.ok_bind, hschedule, Outcome.bind_eq_ok, ImageField.decode_eq_ok_iff,
      Except.ok.injEq, Outcome.toOption_eq_some, Gcm.decrypt_eq_ok_iff]
    cases hsealed : Gcm.encrypt schedule nonce data with
    | error e => simp
    | ok sealedData => simp [eq_comm]

/-- Under a derivation with a salt and at least one round, everything is sealed. -/
theorem exists_sealData {salt : Bytes} (hiterations : derivation.iterations ≠ 0)
    (hsalt : derivation.salt = Base64.encode salt) (hnonce : nonce.length = nonceLength)
    (password data : Bytes) :
    ∃ payload, derivation.sealData password nonce data = .ok payload := by
  have hkey : derivation.derive password =
      .ok (Pbkdf2.derive password salt derivation.iterations.toNat) := by
    rw [derive, if_neg hiterations, hsalt, ImageField.decode_encode]
    rfl
  obtain ⟨schedule, hschedule⟩ := exists_schedule hkey
  have hsealed : Gcm.encrypt schedule nonce data =
      .ok (Gcm.crypt schedule nonce data ++
        Gcm.tag schedule nonce (Gcm.crypt schedule nonce data)) :=
    Aead.sealWith_eq_ok hnonce data
  rw [sealData, hkey, Outcome.ok_bind, hschedule]
  simp only [hsealed]
  exact ⟨_, rfl⟩

end KeyDerivation

end CipherVault
