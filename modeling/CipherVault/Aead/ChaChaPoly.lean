import CipherVault.Aead.ChaCha20
import CipherVault.Aead.Gcm
/-!
# ChaCha20-Poly1305

Authenticated encryption with a 32-byte key, a twelve-byte nonce, a sixteen-byte tag behind the
ciphertext and no additional data.  The first keystream block gives the key of the tag.
-/

namespace CipherVault

/-! ## Poly1305

A one-time authenticator: the message as a polynomial over the integers modulo 2^130 - 5, evaluated
at a clamped point and masked by adding the second half of the key. -/

namespace Poly1305

/-- The number whose base-256 digits are `bs`, least significant first. -/
def littleEndian (bs : Bytes) : Nat :=
  Bytes.toNat bs.reverse

def clampMask : Nat := 0x0ffffffc0ffffffc0ffffffc0fffffff

def modulus : Nat := Nat.pow 2 130 - 5

/-- The polynomial's value at `r`; each piece of sixteen bytes carries a one behind its last. -/
def evaluate (r : Nat) (message : Bytes) : Nat :=
  (Bytes.pieces 16 message).foldl
    (fun sum piece => (sum + littleEndian (piece ++ [1])) * r % modulus) 0

/-- The sixteen-byte tag of a message under a 32-byte key. -/
def tag (key message : Bytes) : Bytes :=
  let r := littleEndian (key.take 16) &&& clampMask
  let mask := littleEndian (key.drop 16)
  (Bytes.ofNat 16 ((evaluate r message + mask) % Nat.pow 2 128)).reverse

@[simp]
theorem length_tag (key message : Bytes) : (tag key message).length = 16 := by
  simp [tag]

end Poly1305

/-! ## Authenticated encryption -/

namespace ChaChaPoly

def keyLength : Nat := 32

/-- The most bytes that are encrypted or, without their tag, decrypted: one less than fill all
keystream blocks. -/
def maxLength : Nat := 64 * (Nat.pow 2 32 - 1) - 1

/-- Encryption and decryption alike: block zero is kept for the tag. -/
def crypt (key nonce data : Bytes) : Bytes :=
  Bytes.xor data (ChaCha20.keystream key nonce ((data.length + 63) / 64) 1)

def tag (key nonce ciphertext : Bytes) : Bytes :=
  let oneTimeKey := (ChaCha20.block key nonce 0).take 32
  let fill := List.replicate ((16 - ciphertext.length % 16) % 16) 0
  let lengths := List.replicate 8 0 ++ (Bytes.ofNat 8 ciphertext.length).reverse
  Poly1305.tag oneTimeKey (ciphertext ++ fill ++ lengths)

def encrypt (key nonce data : Bytes) : Except AeadError Bytes :=
  if nonce.length = nonceLength then
    let ciphertext := crypt key nonce data
    .ok (ciphertext ++ tag key nonce ciphertext)
  else .error .badNonce

def decrypt (key nonce data : Bytes) : Except AeadError Bytes :=
  if nonce.length = nonceLength then
    if data.length < tagLength then .error .unauthenticated
    else
      let ciphertext := data.take (data.length - tagLength)
      if data.drop (data.length - tagLength) = tag key nonce ciphertext then
        .ok (crypt key nonce ciphertext)
      else .error .unauthenticated
  else .error .badNonce

end ChaChaPoly

end CipherVault
