import CipherVault.Aes.Mode
import CipherVault.Rsa.Padding
import CipherVault.Text
/-!
# Transform names

A transform is a cipher with its mode and padding.  Names follow the form algorithm, mode, padding
with slashes between and are read without regard to the case of ASCII letters and to white space at
the ends.
-/

namespace CipherVault

inductive Transform where
  | aes (mode : Aes.Mode) (padding : Aes.Padding)
  | aesGcm
  | chaCha20Poly1305
  | rsa (padding : Rsa.Padding)
deriving DecidableEq, Repr

namespace Transform

def aesPadding? (name : String) : Option Aes.Padding :=
  if name = "PKCS5PADDING" ∨ name = "PKCS7PADDING" then some .pkcs7
  else if name = "NOPADDING" then some .none
  else Option.none

def aesMode? (name : String) : Option Aes.Mode :=
  if name = "ECB" then some .ecb else if name = "CBC" then some .cbc else none

def rsaPadding? (name : String) : Option Rsa.Padding :=
  if name = "PKCS1PADDING" then some .pkcs1
  else if name = "OAEPWITHSHA-256ANDMGF1PADDING" then some .oaepSha256
  else none

/-- The transform that the parts of an upper-case name denote. -/
def ofParts? : List String → Option Transform
  | [algorithm] =>
    if algorithm = "AES" then some (aes .ecb .pkcs7)
    else if algorithm = "CHACHA20-POLY1305" then some chaCha20Poly1305
    else if algorithm = "RSA" then some (rsa .pkcs1)
    else none
  | [algorithm, mode, padding] =>
    if algorithm = "AES" then
      if mode = "GCM" then if padding = "NOPADDING" then some aesGcm else none
      else do
        let mode ← aesMode? mode
        let padding ← aesPadding? padding
        some (aes mode padding)
    else if algorithm = "CHACHA20-POLY1305" then
      if mode = "NONE" ∧ padding = "NOPADDING" then some chaCha20Poly1305 else none
    else if algorithm = "RSA" then
      if mode = "ECB" ∨ mode = "NONE" then (rsaPadding? padding).map rsa else none
    else none
  | _ => none

/-- The pieces of `cs` between slashes; a text without slash is one piece. -/
def splitSlashes : List Char → List (List Char)
  | [] => [[]]
  | c :: rest =>
    match splitSlashes rest with
    | [] => [[c]]
    | piece :: pieces => if c = '/' then [] :: piece :: pieces else (c :: piece) :: pieces

def parts (name : String) : List String :=
  (splitSlashes ((Text.trimChars name.toList).map Char.toUpper)).map String.ofList

/-- The transform that a name denotes. -/
def ofName? (name : String) : Option Transform :=
  ofParts? (parts name)

/-- The preferred name. -/
def name : Transform → String
  | aes .ecb .pkcs7 => "AES/ECB/PKCS5Padding"
  | aes .ecb .none => "AES/ECB/NoPadding"
  | aes .cbc .pkcs7 => "AES/CBC/PKCS5Padding"
  | aes .cbc .none => "AES/CBC/NoPadding"
  | aesGcm => "AES/GCM/NoPadding"
  | chaCha20Poly1305 => "ChaCha20-Poly1305"
  | rsa .pkcs1 => "RSA/ECB/PKCS1Padding"
  | rsa .oaepSha256 => "RSA/ECB/OAEPWithSHA-256AndMGF1Padding"

/-- The length of the initialization vector; zero for transforms without one. -/
def ivLength : Transform → Nat
  | aes .cbc _ => 16
  | aesGcm | chaCha20Poly1305 => 12
  | aes .ecb _ | rsa _ => 0

/-- Whether decryption detects every change of the ciphertext and every wrong key. -/
def isAuthenticated : Transform → Bool
  | aesGcm | chaCha20Poly1305 => true
  | aes .. | rsa _ => false

/-- Whether the transform takes a secret key. -/
def isSymmetric : Transform → Bool
  | rsa _ => false
  | _ => true

end Transform

end CipherVault
