import CipherVault.Rsa.Der
import CipherVault.Rsa.Key
/-!
# Encodings of RSA keys

Private keys as PKCS#8 and public keys as SubjectPublicKeyInfo, both in DER.  A private key is read
from its numbers alone: the precomputed values, attributes and an attached public key are checked
for their form and then dropped, and written anew from the numbers.
-/

namespace CipherVault.Rsa

open Der

/-- The content of the algorithm identifier: the object identifier rsaEncryption and a null. -/
def algorithmContent : Bytes :=
  [0x06, 0x09, 0x2A, 0x86, 0x48, 0x86, 0xF7, 0x0D, 0x01, 0x01, 0x01, 0x05, 0x00]

/-- The algorithm identifier at the front is left out. -/
def afterAlgorithm? (bs : Bytes) : Option Bytes := do
  let (content, rest) ← content? sequenceTag bs
  if content = algorithmContent then some rest else none

/-- The bytes of a bit string without unused bits. -/
def wholeBits? : Bytes → Option Bytes
  | unused :: bits => if unused = 0 then some bits else none
  | [] => none

/-- Largest modulus of a public key, in bits. -/
def maxPublicBits : Nat := 4096

namespace PublicKey

/-- The key that `bs` encodes, if it is valid and not too long. -/
def decode? (bs : Bytes) : Option PublicKey := do
  let body ← sole? sequenceTag bs
  let rest ← afterAlgorithm? body
  let bits ← sole? bitStringTag rest
  let encoded ← wholeBits? bits
  let content ← sole? sequenceTag encoded
  match ← naturals? 2 content with
  | [modulus, exponent] =>
    if modulus < Nat.pow 2 maxPublicBits then PublicKey.ofNumbers? modulus exponent else none
  | _ => none

/-- The encoding of a key, whether its numbers are checked or not. -/
def encode? (key : PublicKey) : Option Bytes := do
  let content ← naturals [key.modulus, key.exponent]
  let encoded ← element sequenceTag content
  let algorithm ← element sequenceTag algorithmContent
  let bits ← element bitStringTag (0 :: encoded)
  element sequenceTag (algorithm ++ bits)

end PublicKey

/-- Elements of context-specific class that hold one element each.  The first argument bounds their
number. -/
def areExplicit : Nat → Bytes → Bool
  | _, [] => true
  | 0, _ :: _ => false
  | fuel + 1, bs =>
    match element? bs with
    | none => false
    | some (tag, content, rest) =>
      0xA0 ≤ tag && tag < 0xC0 &&
        (match element? content with
          | some (_, _, []) => areExplicit fuel rest
          | _ => false)

/-- What stands behind the attributes, the elements of context-specific class with number zero, at
the front.  The first argument bounds their number. -/
def afterAttributes? : Nat → Bytes → Option Bytes
  | _, [] => some []
  | 0, _ :: _ => none
  | fuel + 1, tag :: rest =>
    if tag = 0x80 ∨ tag = 0xA0 then do
      let (_, _, rest) ← element? (tag :: rest)
      afterAttributes? fuel rest
    else some (tag :: rest)

/-- Whether `bs` may follow the key in an encoding of the given version: attributes, in version one
a public key with number one, and further elements that hold one element each. -/
def isTrailer (version : Nat) (bs : Bytes) : Bool :=
  match afterAttributes? bs.length bs with
  | none => false
  | some [] => version == 0
  | some (tag :: rest) =>
    if tag = 0x81 then
      version == 1 &&
        (match element? (tag :: rest) with
          | some (_, bits, rest) => (wholeBits? bits).isSome && areExplicit rest.length rest
          | none => false)
    else if tag = 0xA1 then false
    else version == 0 && areExplicit (rest.length + 1) (tag :: rest)

namespace PrivateKey

/-- The key that the inner encoding, with version zero and two factors, holds. -/
def ofContent? (content : Bytes) : Option PrivateKey := do
  match ← naturals? 9 content with
  | [version, modulus, publicExponent, exponent, factor1, factor2, _, _, _] =>
    if version = 0 then
      PrivateKey.ofNumbers? modulus publicExponent exponent factor1 factor2
    else none
  | _ => none

/-- The key that `bs` encodes. -/
def decode? (bs : Bytes) : Option PrivateKey := do
  let body ← sole? sequenceTag bs
  let (version, rest) ← natural? body
  let rest ← afterAlgorithm? rest
  let (encoded, rest) ← content? octetStringTag rest
  if isTrailer version rest then
    let content ← sole? sequenceTag encoded
    ofContent? content
  else none

/-- The encoding of a key; there is none when the second factor has no inverse modulo the first. -/
def encode? (key : PrivateKey) : Option Bytes := do
  let coefficient ← key.coefficient?
  let content ← naturals [0, key.publicKey.modulus, key.publicKey.exponent, key.exponent,
    key.factor1, key.factor2, key.exponent1, key.exponent2, coefficient]
  let inner ← element sequenceTag content
  let version ← natural 0
  let algorithm ← element sequenceTag algorithmContent
  let encoded ← element octetStringTag inner
  element sequenceTag (version ++ algorithm ++ encoded)

end PrivateKey

end CipherVault.Rsa
