import CipherVault.Aes.Schedule
/-!
# AES in Galois counter mode

Authenticated encryption with a twelve-byte nonce, a sixteen-byte tag behind the ciphertext and no
additional data.  Opening recomputes the tag and refuses a text with any other.
-/

namespace CipherVault

/-- What keeps an authenticated cipher from running. -/
inductive AeadError where
  /-- The nonce does not have twelve bytes. -/
  | badNonce
  /-- The tag is missing or wrong. -/
  | unauthenticated
deriving DecidableEq, Repr

/-- Every authenticated cipher here takes a nonce of twelve bytes. -/
def nonceLength : Nat := 12

def tagLength : Nat := 16

namespace Gcm

/-- The most bytes that are encrypted. -/
def maxPlaintext : Nat := Nat.pow 2 36

/-- The most bytes that are decrypted, their tag left out. -/
def maxCiphertext : Nat := maxPlaintext + tagLength

/-! ### The field of 2^128 elements

An element is 128 bits, the first bit of its first byte being the coefficient of one; the modulus is
x^128 + x^7 + x^2 + x + 1. -/

structure Element where
  high : UInt64
  low : UInt64
deriving DecidableEq, Repr

namespace Element

def zero : Element := ⟨0, 0⟩

def add (u v : Element) : Element :=
  ⟨u.high ^^^ v.high, u.low ^^^ v.low⟩

/-- The product with x. -/
def timesX (v : Element) : Element :=
  let low := (v.low >>> 1) ||| (v.high <<< 63)
  let high := v.high >>> 1
  if v.low &&& 1 = 1 then ⟨high ^^^ 0xe100000000000000, low⟩ else ⟨high, low⟩

/-- The sum so far, plus `v`, `v` times x and so on for each one among the first `count` bits. -/
def mulBits : (count : Nat) → (bits : UInt64) → (v sum : Element) → Element × Element
  | 0, _, v, sum => (v, sum)
  | count + 1, bits, v, sum =>
    mulBits count (bits <<< 1) v.timesX
      (if bits &&& 0x8000000000000000 = 0 then sum else sum.add v)

def mul (u v : Element) : Element :=
  let (v, sum) := mulBits 64 u.high v zero
  (mulBits 64 u.low v sum).2

def word : Bytes → UInt64 :=
  List.foldl (fun value b => (value <<< 8) ||| b.toUInt64) 0

/-- The element that up to sixteen bytes spell, zeros being added behind them. -/
def ofBytes (bs : Bytes) : Element :=
  let filled := bs ++ List.replicate (16 - bs.length) 0
  ⟨word (filled.take 8), word ((filled.drop 8).take 8)⟩

def toBytes (u : Element) : Bytes :=
  Bytes.ofNat 8 u.high.toNat ++ Bytes.ofNat 8 u.low.toNat

@[simp]
theorem length_toBytes (u : Element) : u.toBytes.length = 16 := by
  simp [toBytes]

end Element

/-! ### Keystream and tag -/

/-- The block that the nonce and a counter form. -/
def counterBlock (nonce : Bytes) (counter : UInt32) : Aes.Block :=
  (Aes.block? (nonce ++ Bytes.ofNat 4 counter.toNat)).getD default

/-- `count` encrypted counter blocks, the first with the given counter. -/
def keystream (schedule : Aes.Schedule) (nonce : Bytes) : (count : Nat) → UInt32 → Bytes
  | 0, _ => []
  | count + 1, counter =>
    (schedule.encrypt (counterBlock nonce counter)).toBytes ++
      keystream schedule nonce count (counter + 1)

/-- Encryption and decryption alike: counter one is kept for the tag. -/
def crypt (schedule : Aes.Schedule) (nonce data : Bytes) : Bytes :=
  Bytes.xor data (keystream schedule nonce ((data.length + 15) / 16) 2)

/-- The hash of a ciphertext and its length under the key `h`. -/
def ghash (h : Element) (ciphertext : Bytes) : Element :=
  let lengths : Element := ⟨0, UInt64.ofNat (8 * ciphertext.length)⟩
  let absorbed := ((Bytes.pieces 16 ciphertext).map Element.ofBytes).foldl
    (fun sum block => (sum.add block).mul h) Element.zero
  (absorbed.add lengths).mul h

def tag (schedule : Aes.Schedule) (nonce ciphertext : Bytes) : Bytes :=
  let h := Element.ofBytes (schedule.encrypt default).toBytes
  Bytes.xor (ghash h ciphertext).toBytes (schedule.encrypt (counterBlock nonce 1)).toBytes

def encrypt (schedule : Aes.Schedule) (nonce data : Bytes) : Except AeadError Bytes :=
  if nonce.length = nonceLength then
    let ciphertext := crypt schedule nonce data
    .ok (ciphertext ++ tag schedule nonce ciphertext)
  else .error .badNonce

def decrypt (schedule : Aes.Schedule) (nonce data : Bytes) : Except AeadError Bytes :=
  if nonce.length = nonceLength then
    if data.length < tagLength then .error .unauthenticated
    else
      let ciphertext := data.take (data.length - tagLength)
      if data.drop (data.length - tagLength) = tag schedule nonce ciphertext then
        .ok (crypt schedule nonce ciphertext)
      else .error .unauthenticated
  else .error .badNonce

end Gcm

end CipherVault
