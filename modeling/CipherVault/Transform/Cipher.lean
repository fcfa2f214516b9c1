import CipherVault.Aead.ChaChaPoly
import CipherVault.Error
import CipherVault.Rsa.Cipher
/-!
# Encryption and decryption under a transform

A transform checks the initialization vector first, then the key, then the data.  The vector that
was used travels in front of the ciphertext, and decryption splits it off again.
-/

namespace CipherVault

/-- What one encryption yields: the initialization vector used, if any, and the ciphertext. -/
structure EncryptedData where
  iv : Option Bytes
  ciphertext : Bytes
deriving DecidableEq, Repr

/-- The initialization vector and the ciphertext behind it. -/
def EncryptedData.payload (data : EncryptedData) : Bytes :=
  data.iv.getD [] ++ data.ciphertext

namespace Transform

/-- The transform that a name denotes, or the refusal that quotes the name. -/
def parse (name : String) : Except CipherError Transform :=
  match ofName? name with
  | some transform => .ok transform
  | none => .error (.illegal (.unsupportedAlgorithm name))

/-- The pinned initialization vector, or one drawn at random; none for a transform without one. -/
def prepareIv (transform : Transform) (entropy : Entropy) (pinned : Option Bytes) :
    Except CipherError (Option Bytes) :=
  match pinned with
  | some iv =>
    if transform.ivLength = 0 then .error (.illegal (.ivNotTaken transform))
    else if iv.length = transform.ivLength then .ok (some iv)
    else .error (.illegal (.ivLength transform iv.length))
  | none =>
    if transform.ivLength = 0 then .ok none
    else .ok (some (entropy.bytes transform.ivLength))

def secretKey (transform : Transform) (key : KeyMaterial) : Except CipherError Bytes :=
  match key.secret? with
  | some secret => .ok secret
  | none => .error (.illegal (.secretNeeded transform))

def aesSchedule (transform : Transform) (key : KeyMaterial) : Except CipherError Aes.Schedule := do
  let secret ← transform.secretKey key
  match Aes.Schedule.ofKey? secret with
  | some schedule => .ok schedule
  | none => .error (.illegal (.aesKeyLength secret.length))

def chaChaKey (transform : Transform) (key : KeyMaterial) : Except CipherError Bytes := do
  let secret ← transform.secretKey key
  if secret.length = ChaChaPoly.keyLength then .ok secret
  else .error (.illegal .chaChaKeyLength)

/-- How a block mode's refusal of `length` bytes is reported. -/
def ofModeError (length : Nat) : Aes.ModeError → CipherError
  | .badIv => .illegal .ivMissing
  | .notAligned => .failure (.notAligned length)
  | .badPadding => .failure .badPadding

def ofAeadError : AeadError → CipherError
  | .badNonce => .illegal .ivMissing
  | .unauthenticated => .failure .unauthenticated

def ofRsaError : Rsa.BlockError → CipherError
  | .keyTooSmall => .illegal .rsaKeyTooSmall
  | .invalidKey fault => .failure (.rsaEncryption fault)
  | .notBlocks length size => .failure (.notRsaBlocks length size)
  | .badBlock => .failure .badPadding

/-- The outcome for `length` bytes of a cipher that takes `limit` bytes at most. -/
def limited (limit length : Nat) (fault : CryptoFault) (outcome : Except CipherError Bytes) :
    Except CipherError Bytes :=
  if length ≤ limit then outcome else .error (.failure fault)

/-- The ciphertext of data under a prepared initialization vector, empty for transforms without
one. -/
def encryptWith (transform : Transform) (key : KeyMaterial) (entropy : Entropy) (iv data : Bytes) :
    Except CipherError Bytes :=
  match transform with
  | aes mode padding => do
    let schedule ← transform.aesSchedule key
    (mode.encrypt padding schedule iv data).mapError (ofModeError data.length)
  | aesGcm => do
    let schedule ← transform.aesSchedule key
    limited Gcm.maxPlaintext data.length .gcmEncryption
      ((Gcm.encrypt schedule iv data).mapError ofAeadError)
  | chaCha20Poly1305 => do
    let secret ← transform.chaChaKey key
    limited ChaChaPoly.maxLength data.length .chaChaEncryption
      ((ChaChaPoly.encrypt secret iv data).mapError ofAeadError)
  | rsa padding =>
    match key.publicKey? with
    | none => .error (.illegal (.rsaKeyNeeded transform))
    | some publicKey => (publicKey.encrypt padding entropy data).mapError ofRsaError

/-- The plaintext of a ciphertext whose initialization vector is split off. -/
def decryptWith (transform : Transform) (key : KeyMaterial) (iv ciphertext : Bytes) :
    Except CipherError Bytes :=
  match transform with
  | aes mode padding => do
    let schedule ← transform.aesSchedule key
    (mode.decrypt padding schedule iv ciphertext).mapError (ofModeError ciphertext.length)
  | aesGcm => do
    let schedule ← transform.aesSchedule key
    limited Gcm.maxCiphertext (ciphertext.length - tagLength) .unauthenticated
      ((Gcm.decrypt schedule iv ciphertext).mapError ofAeadError)
  | chaCha20Poly1305 => do
    let secret ← transform.chaChaKey key
    limited ChaChaPoly.maxLength (ciphertext.length - tagLength) .unauthenticated
      ((ChaChaPoly.decrypt secret iv ciphertext).mapError ofAeadError)
  | rsa padding =>
    match key.privateKey? with
    | none => .error (.illegal (.rsaPrivateKeyNeeded transform))
    | some privateKey => (privateKey.decrypt padding ciphertext).mapError ofRsaError

/-- Encrypt under a key, with an initialization vector drawn at random unless one is pinned. -/
def encrypt (transform : Transform) (key : KeyMaterial) (entropy : Entropy) (iv : Option Bytes)
    (data : Bytes) : Except CipherError EncryptedData := do
  let iv ← transform.prepareIv entropy iv
  let ciphertext ← transform.encryptWith key entropy (iv.getD []) data
  .ok ⟨iv, ciphertext⟩

/-- Decrypt a payload: an initialization vector and the ciphertext behind it. -/
def decrypt (transform : Transform) (key : KeyMaterial) (payload : Bytes) :
    Except CipherError Bytes :=
  if payload.length < transform.ivLength then
    .error (.failure (.payloadTooShort payload.length transform.ivLength))
  else
    transform.decryptWith key (payload.take transform.ivLength) (payload.drop transform.ivLength)

end Transform

end CipherVault
