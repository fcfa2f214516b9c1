import CipherVault.Proofs.EncryptionDomain
/-!
# Partial operations

Some operations have an outcome only within a domain: authenticated ciphers for a nonce of twelve
bytes, block encryption for whole blocks, a cut for an index up to the length, a division into
pieces for a positive length.  A strict run takes the same steps as encryption or decryption and is
aborted by such an operation outside of its domain.  No strict run is aborted, and each has the
outcome of the run that it follows.
-/

namespace CipherVault

/-- A run that has an outcome or is aborted. -/
abbrev Strict (ε α : Type) := ExceptT ε Option α

namespace Strict

variable {ε ε' α β : Type}

/-- The value of an operation; without one the run is aborted. -/
def value (x : Option α) : Strict ε α :=
  ExceptT.mk (x.map .ok)

/-- The outcome of an operation within its domain. -/
def call (domain : Prop) [Decidable domain] (outcome : Except ε α) : Strict ε α :=
  if domain then ExceptT.mk (some outcome) else value none

/-- The run is not aborted and has the given outcome. -/
def Yields (x : Strict ε α) (outcome : Except ε α) : Prop :=
  x.run = some outcome

namespace Yields

theorem value {x : Option α} {a : α} (h : x = some a) :
    Yields (Strict.value x : Strict ε α) (.ok a) := by
  rw [h]
  rfl

theorem call {domain : Prop} [Decidable domain] (h : domain) (outcome : Except ε α) :
    Yields (Strict.call domain outcome) outcome := by
  rw [Strict.call, if_pos h]
  rfl

theorem lift (outcome : Except ε α) : Yields (liftM outcome) outcome := rfl

theorem lift_of_eq {x outcome : Except ε α} (h : x = outcome) : Yields (liftM x) outcome :=
  congrArg some h

theorem pure (a : α) : Yields (Pure.pure a : Strict ε α) (.ok a) := rfl

theorem throw (e : ε) : Yields (MonadExcept.throw e : Strict ε α) (.error e) := rfl

theorem bind {x : Strict ε α} {f : α → Strict ε β} {outcome : Except ε α} {g : α → Except ε β}
    (hx : Yields x outcome) (hf : ∀ a, outcome = .ok a → Yields (f a) (g a)) :
    Yields (x >>= f) (outcome >>= g) := by
  have hrun : (x >>= f).run = x.run.bind (ExceptT.bindCont f) := rfl
  rw [Yields, hrun, show x.run = some outcome from hx]
  cases outcome with
  | ok a => exact hf a rfl
  | error e => rfl

theorem ok_bind {x : Strict ε α} {f : α → Strict ε β} {a : α} {outcome : Except ε β}
    (hx : Yields x (.ok a)) (hf : Yields (f a) outcome) : Yields (x >>= f) outcome :=
  bind (g := fun _ => outcome) hx fun _ h => Except.ok.inj h ▸ hf

theorem error_bind {x : Strict ε α} {e : ε} (hx : Yields x (.error e)) (f : α → Strict ε β) :
    Yields (x >>= f) (.error e) :=
  bind (g := fun _ => .error e) hx nofun

theorem adapt {x : Strict ε α} {outcome : Except ε α} (hx : Yields x outcome) (f : ε → ε') :
    Yields (x.adapt f) (outcome.mapError f) := by
  have hrun : (x.adapt f).run = x.run.map (Except.mapError f) := rfl
  rw [Yields, hrun, show x.run = some outcome from hx]
  rfl

end Yields

end Strict

/-! ## Block modes -/

namespace Aes

/-- Data that is not padded is checked before it is encrypted. -/
def ensureAligned (data : Bytes) : Except ModeError Unit :=
  if data.length % 16 = 0 then .ok () else .error .notAligned

namespace Mode

/-- Chaining starts from a vector of sixteen bytes. -/
def setUpStrict (mode : Mode) (iv : Bytes) : Strict ModeError Unit :=
  Strict.call (mode = .cbc → iv.length = 16) (.ok ())

def encryptStrict (mode : Mode) (padding : Padding) (schedule : Schedule) (iv data : Bytes) :
    Strict ModeError Bytes := do
  mode.setUpStrict iv
  match padding with
  | .pkcs7 => mode.encrypt .pkcs7 schedule iv data
  | .none => do
    ensureAligned data
    Strict.call (data.length % 16 = 0) (mode.encrypt .none schedule iv data)

def decryptStrict (mode : Mode) (padding : Padding) (schedule : Schedule) (iv data : Bytes) :
    Strict ModeError Bytes := do
  mode.setUpStrict iv
  mode.decrypt padding schedule iv data

variable {mode : Mode} {padding : Padding} {schedule : Schedule} {iv data : Bytes}

theorem setUpStrict_yields (h : mode = .cbc → iv.length = 16) :
    (mode.setUpStrict iv).Yields (.ok ()) :=
  .call h _

theorem encryptStrict_yields (h : mode = .cbc → iv.length = 16) :
    (mode.encryptStrict padding schedule iv data).Yields
      (mode.encrypt padding schedule iv data) := by
  apply Strict.Yields.ok_bind (setUpStrict_yields h)
  cases padding with
  | pkcs7 => exact .lift _
  | none =>
    by_cases haligned : data.length % 16 = 0
    · have hpasses : ensureAligned data = .ok () := if_pos haligned
      apply Strict.Yields.ok_bind (.lift_of_eq hpasses)
      exact .call haligned _
    · have hstops : ensureAligned data = .error .notAligned := if_neg haligned
      have hfills : ¬Padding.none.Fills data.length := haligned
      rw [encrypt_of_not_fills hfills]
      exact .error_bind (.lift_of_eq hstops) _

/-- Without its vector chaining is aborted. -/
example (schedule : Schedule) : (Mode.cbc.encryptStrict .pkcs7 schedule [] []).run = none := rfl

theorem decryptStrict_yields (h : mode = .cbc → iv.length = 16) :
    (mode.decryptStrict padding schedule iv data).Yields
      (mode.decrypt padding schedule iv data) := by
  apply Strict.Yields.ok_bind (setUpStrict_yields h)
  exact .lift _

end Mode

end Aes

/-! ## Chunks and blocks of RSA -/

namespace Rsa

variable {ε : Type} {size : Nat} {data : Bytes}

def piecesStrict (size : Nat) (data : Bytes) : Strict ε (List Bytes) :=
  Strict.call (size ≠ 0) (.ok (data.pieces size))

/-- The pieces of data, an empty text being one empty piece. -/
def chunksStrict (size : Nat) (data : Bytes) : Strict ε (List Bytes) :=
  if data.isEmpty then pure [[]] else piecesStrict size data

/-- Whether data is a positive number of whole blocks. -/
def isWholeStrict (size : Nat) (data : Bytes) : Strict ε Bool :=
  if data.isEmpty then pure false
  else do
    let rest ← Strict.call (size ≠ 0) (.ok (data.length % size))
    pure (rest == 0)

theorem chunksStrict_yields (h : size ≠ 0) :
    (chunksStrict size data : Strict ε _).Yields
      (.ok (if data.isEmpty then [[]] else data.pieces size)) := by
  rw [chunksStrict]
  split
  · exact .pure _
  · exact .call h _

theorem isWholeStrict_yields (h : size ≠ 0) :
    (isWholeStrict size data : Strict ε _).Yields
      (.ok (!data.isEmpty && data.length % size == 0)) := by
  rw [isWholeStrict]
  cases data.isEmpty with
  | true => exact .pure _
  | false =>
    apply Strict.Yields.ok_bind (.call h _)
    exact .pure _

def PublicKey.encryptStrict (key : PublicKey) (padding : Padding) (entropy : Entropy)
    (data : Bytes) : Strict BlockError Bytes :=
  let chunkLength := key.size - padding.overhead
  if chunkLength = 0 then throw .keyTooSmall
  else do
    let chunks ← chunksStrict chunkLength data
    match key.fault? with
    | some fault => throw (.invalidKey fault)
    | none => pure (key.encryptChunks padding entropy chunks)

theorem PublicKey.encryptStrict_yields (key : PublicKey) (padding : Padding) (entropy : Entropy)
    (data : Bytes) :
    (key.encryptStrict padding entropy data).Yields (key.encrypt padding entropy data) := by
  rw [encryptStrict, encrypt]
  split
  · exact .throw _
  · next hroom =>
    apply Strict.Yields.ok_bind (chunksStrict_yields hroom)
    cases key.fault? with
    | some fault => exact .throw _
    | none => exact .pure _

def PrivateKey.decryptStrict (key : PrivateKey) (padding : Padding) (data : Bytes) :
    Strict BlockError Bytes := do
  if ← isWholeStrict key.size data then
    let blocks ← piecesStrict key.size data
    match key.decryptBlocks? padding blocks with
    | some plain => pure plain
    | none => throw .badBlock
  else throw (.notBlocks data.length key.size)

theorem PrivateKey.decryptStrict_yields (key : PrivateKey) (padding : Padding) (data : Bytes) :
    (key.decryptStrict padding data).Yields (key.decrypt padding data) := by
  have hsize : key.size ≠ 0 := Nat.ne_of_gt key.size_pos
  apply Strict.Yields.ok_bind (isWholeStrict_yields hsize)
  rw [decrypt]
  by_cases hblocks : data.isEmpty ∨ data.length % key.size ≠ 0
  · have hwhole : (!data.isEmpty && data.length % key.size == 0) = false := by
      simpa [Decidable.or_iff_not_imp_left] using hblocks
    rw [if_pos hblocks, hwhole]
    exact .throw _
  · have hwhole : (!data.isEmpty && data.length % key.size == 0) = true := by
      simpa using hblocks
    rw [if_neg hblocks, hwhole]
    apply Strict.Yields.ok_bind (.call hsize _)
    cases key.decryptBlocks? padding (data.pieces key.size) with
    | some plain => exact .pure _
    | none => exact .throw _

end Rsa

/-! ## Transforms -/

namespace Transform

variable {transform : Transform} {key : KeyMaterial} {entropy : Entropy} {iv data payload : Bytes}

/-- The vector that a cipher asks for. -/
def requireIv (iv : Option Bytes) : Except CipherError Bytes :=
  match iv with
  | some iv => .ok iv
  | none => .error (.illegal .ivMissing)

def encryptWithStrict (transform : Transform) (key : KeyMaterial) (entropy : Entropy)
    (iv : Option Bytes) (data : Bytes) : Strict CipherError Bytes :=
  match transform with
  | aes .ecb padding => do
    let schedule ← transform.aesSchedule key
    (Aes.Mode.ecb.encryptStrict padding schedule [] data).adapt (ofModeError data.length)
  | aes .cbc padding => do
    let iv ← requireIv iv
    let schedule ← transform.aesSchedule key
    (Aes.Mode.cbc.encryptStrict padding schedule iv data).adapt (ofModeError data.length)
  | aesGcm => do
    let nonce ← requireIv iv
    let schedule ← transform.aesSchedule key
    Strict.call (nonce.length = 12)
      (limited Gcm.maxPlaintext data.length .gcmEncryption
        ((Gcm.encrypt schedule nonce data).mapError ofAeadError))
  | chaCha20Poly1305 => do
    let nonce ← requireIv iv
    let secret ← transform.chaChaKey key
    Strict.call (nonce.length = 12)
      (limited ChaChaPoly.maxLength data.length .chaChaEncryption
        ((ChaChaPoly.encrypt secret nonce data).mapError ofAeadError))
  | rsa padding =>
    match key.publicKey? with
    | none => throw (.illegal (.rsaKeyNeeded transform))
    | some publicKey => (publicKey.encryptStrict padding entropy data).adapt ofRsaError

def encryptStrict (transform : Transform) (key : KeyMaterial) (entropy : Entropy)
    (iv : Option Bytes) (data : Bytes) : Strict CipherError EncryptedData := do
  let iv ← transform.prepareIv entropy iv
  let ciphertext ← transform.encryptWithStrict key entropy iv data
  pure ⟨iv, ciphertext⟩

def decryptWithStrict (transform : Transform) (key : KeyMaterial) (iv ciphertext : Bytes) :
    Strict CipherError Bytes :=
  match transform with
  | aes mode padding => do
    let schedule ← transform.aesSchedule key
    (mode.decryptStrict padding schedule iv ciphertext).adapt (ofModeError ciphertext.length)
  | aesGcm => do
    let schedule ← transform.aesSchedule key
    Strict.call (iv.length = 12)
      (limited Gcm.maxCiphertext (ciphertext.length - tagLength) .unauthenticated
        ((Gcm.decrypt schedule iv ciphertext).mapError ofAeadError))
  | chaCha20Poly1305 => do
    let secret ← transform.chaChaKey key
    Strict.call (iv.length = 12)
      (limited ChaChaPoly.maxLength (ciphertext.length - tagLength) .unauthenticated
        ((ChaChaPoly.decrypt secret iv ciphertext).mapError ofAeadError))
  | rsa padding =>
    match key.privateKey? with
    | none => throw (.illegal (.rsaPrivateKeyNeeded transform))
    | some privateKey => (privateKey.decryptStrict padding ciphertext).adapt ofRsaError

/-- The payload cut at an index, which must not lie behind its end. -/
def splitStrict (index : Nat) (payload : Bytes) : Strict CipherError (Bytes × Bytes) :=
  Strict.call (index ≤ payload.length) (.ok (payload.take index, payload.drop index))

def decryptStrict (transform : Transform) (key : KeyMaterial) (payload : Bytes) :
    Strict CipherError Bytes :=
  if payload.length < transform.ivLength then
    throw (.failure (.payloadTooShort payload.length transform.ivLength))
  else do
    let (iv, ciphertext) ← splitStrict transform.ivLength payload
    transform.decryptWithStrict key iv ciphertext

theorem requireIv_eq_ok {iv : Option Bytes} (h : (iv.getD []).length ≠ 0) :
    requireIv iv = .ok (iv.getD []) := by
  cases iv with
  | none => exact absurd rfl h
  | some iv => rfl

theorem encryptWithStrict_yields {iv : Option Bytes}
    (h : (iv.getD []).length = transform.ivLength) :
    (transform.encryptWithStrict key entropy iv data).Yields
      (transform.encryptWith key entropy (iv.getD []) data) := by
  have hiv : transform.ivLength ≠ 0 → requireIv iv = .ok (iv.getD []) := by
    intro hpos
    rw [← h] at hpos
    exact requireIv_eq_ok hpos
  cases transform with
  | aes mode padding =>
    cases mode with
    | ecb =>
      have hnone : iv.getD [] = [] := List.length_eq_zero_iff.mp h
      have hcodebook : Aes.Mode.ecb = .cbc → ([] : Bytes).length = 16 := nofun
      rw [hnone]
      apply Strict.Yields.bind (.lift _)
      intro schedule _
      exact .adapt (Aes.Mode.encryptStrict_yields hcodebook) _
    | cbc =>
      have hchained : Aes.Mode.cbc = .cbc → (iv.getD []).length = 16 := fun _ => h
      apply Strict.Yields.ok_bind (.lift_of_eq (hiv (Nat.succ_ne_zero 15)))
      apply Strict.Yields.bind (.lift _)
      intro schedule _
      exact .adapt (Aes.Mode.encryptStrict_yields hchained) _
  | aesGcm =>
    apply Strict.Yields.ok_bind (.lift_of_eq (hiv (Nat.succ_ne_zero 11)))
    apply Strict.Yields.bind (.lift _)
    intro schedule _
    exact .call h _
  | chaCha20Poly1305 =>
    apply Strict.Yields.ok_bind (.lift_of_eq (hiv (Nat.succ_ne_zero 11)))
    apply Strict.Yields.bind (.lift _)
    intro secret _
    exact .call h _
  | rsa padding =>
    rw [encryptWithStrict, encryptWith]
    cases key.publicKey? with
    | none => exact .throw _
    | some publicKey => exact .adapt (publicKey.encryptStrict_yields padding entropy data) _

theorem encryptStrict_yields (transform : Transform) (key : KeyMaterial) (entropy : Entropy)
    (iv : Option Bytes) (data : Bytes) :
    (transform.encryptStrict key entropy iv data).Yields
      (transform.encrypt key entropy iv data) := by
  apply Strict.Yields.bind (.lift _)
  intro prepared hprepared
  have hlength := prepareIv_eq_ok hprepared
  apply Strict.Yields.bind (encryptWithStrict_yields hlength)
  intro ciphertext _
  exact .pure _

theorem decryptWithStrict_yields (h : iv.length = transform.ivLength) :
    (transform.decryptWithStrict key iv data).Yields (transform.decryptWith key iv data) := by
  cases transform with
  | aes mode padding =>
    have hblock : mode = .cbc → iv.length = 16 := by
      rintro rfl
      exact h
    apply Strict.Yields.bind (.lift _)
    intro schedule _
    exact .adapt (Aes.Mode.decryptStrict_yields hblock) _
  | aesGcm =>
    apply Strict.Yields.bind (.lift _)
    intro schedule _
    exact .call h _
  | chaCha20Poly1305 =>
    apply Strict.Yields.bind (.lift _)
    intro secret _
    exact .call h _
  | rsa padding =>
    rw [decryptWithStrict, decryptWith]
    cases key.privateKey? with
    | none => exact .throw _
    | some privateKey => exact .adapt (privateKey.decryptStrict_yields padding data) _

theorem decryptStrict_yields (transform : Transform) (key : KeyMaterial) (payload : Bytes) :
    (transform.decryptStrict key payload).Yields (transform.decrypt key payload) := by
  rw [decryptStrict, decrypt]
  split
  · exact .throw _
  · next hlong =>
    have hsplit : transform.ivLength ≤ payload.length := Nat.not_lt.mp hlong
    have hiv : (payload.take transform.ivLength).length = transform.ivLength :=
      List.length_take_of_le hsplit
    apply Strict.Yields.ok_bind (.call hsplit _)
    exact decryptWithStrict_yields hiv

/-! ### The missing vector -/

theorem keyFault_ne_ivMissing (transform : Transform) (shape : KeyShape) :
    transform.keyFault shape ≠ .ivMissing := by
  cases transform <;> cases shape <;> nofun

theorem encryptWith_ne_ivMissing (hiv : iv.length = transform.ivLength) :
    transform.encryptWith key entropy iv data ≠ .error (.illegal .ivMissing) := by
  intro h
  by_cases hsymmetric : transform.isSymmetric = true
  · cases hrefused : transform.encryptionError? key.shape data.length with
    | none =>
      obtain ⟨_, hdata, -⟩ := exists_encryptWith_of_encryptionError? hsymmetric hiv hrefused
      cases hdata.symm.trans h
    | some e =>
      rw [encryptWith_of_encryptionError? hsymmetric hrefused] at h
      obtain rfl := Except.error.inj h
      rw [encryptionError?] at hrefused
      split at hrefused
      · exact keyFault_ne_ivMissing _ _ (CipherError.illegal.inj (Option.some.inj hrefused))
      · split at hrefused <;> cases hrefused
  · cases transform with
    | rsa padding =>
      rw [encryptWith] at h
      split at h
      · cases h
      · obtain ⟨cause, -, hcause⟩ := Outcome.mapError_eq_error.mp h
        cases cause <;> cases hcause
    | _ => exact absurd rfl hsymmetric

/-- No encryption lacks its vector: it was pinned in the right length or drawn. -/
theorem encrypt_ne_ivMissing {pinned : Option Bytes} :
    transform.encrypt key entropy pinned data ≠ .error (.illegal .ivMissing) := by
  intro h
  obtain hprepare | ⟨iv, hiv, h⟩ := Outcome.bind_eq_error.mp h
  · rw [prepareIv.eq_def] at hprepare
    split at hprepare
    · split at hprepare
      · cases hprepare
      · split at hprepare <;> cases hprepare
    · split at hprepare <;> cases hprepare
  · obtain hcipher | ⟨_, -, hpair⟩ := Outcome.bind_eq_error.mp h
    · exact encryptWith_ne_ivMissing (prepareIv_eq_ok hiv) hcipher
    · cases hpair

theorem decrypt_ne_ivMissing : transform.decrypt key payload ≠ .error (.illegal .ivMissing) := by
  intro h
  by_cases hlong : transform.ivLength ≤ payload.length
  · obtain ⟨-, hfault⟩ := (decrypt_eq_illegal_iff hlong).mp h
    exact keyFault_ne_ivMissing _ _ hfault.symm
  · rw [decrypt, if_pos (Nat.not_le.mp hlong)] at h
    cases h

end Transform

end CipherVault
