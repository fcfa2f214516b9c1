import CipherVault.Rsa.Key
import CipherVault.Rsa.Padding
/-!
# RSA encryption of texts of any length

A text is cut into chunks that fit one padded block, an empty text being one empty chunk; each chunk
becomes one block as long as the modulus, unless the key turns out not to be valid.  Decryption cuts
into blocks and joins their chunks.
-/

namespace CipherVault.Rsa

/-- Why a text is not encrypted or decrypted. -/
inductive BlockError where
  /-- The modulus leaves no room for data beside the padding. -/
  | keyTooSmall
  /-- The key fails the check that is made of it before a block is encrypted. -/
  | invalidKey (fault : KeyFault)
  /-- A ciphertext of `length` bytes is no positive number of blocks of `size` bytes. -/
  | notBlocks (length size : Nat)
  /-- Some block does not decrypt to padded data. -/
  | badBlock
deriving DecidableEq, Repr

namespace PublicKey

/-- The block of one chunk. -/
def encryptBlock (key : PublicKey) (padding : Padding) (entropy : Entropy) (chunk : Bytes) :
    Bytes :=
  Bytes.ofNat key.size (key.raise (Bytes.toNat (padding.pad key.size entropy chunk)))

/-- The blocks of the chunks; each block has random bytes of its own. -/
def encryptChunks (key : PublicKey) (padding : Padding) : Entropy → List Bytes → Bytes
  | _, [] => []
  | entropy, chunk :: rest =>
    key.encryptBlock padding entropy chunk ++
      encryptChunks key padding (entropy.skip key.size) rest

/-- The first chunk is there always, so the key is checked always. -/
def encrypt (key : PublicKey) (padding : Padding) (entropy : Entropy) (data : Bytes) :
    Except BlockError Bytes :=
  let chunkLength := key.size - padding.overhead
  if chunkLength = 0 then .error .keyTooSmall
  else match key.fault? with
    | some fault => .error (.invalidKey fault)
    | none =>
      let chunks := if data.isEmpty then [[]] else data.pieces chunkLength
      .ok (key.encryptChunks padding entropy chunks)

end PublicKey

namespace PrivateKey

/-- The chunk of one block. -/
def decryptBlock? (key : PrivateKey) (padding : Padding) (block : Bytes) : Option Bytes := do
  let message ← key.recover? (Bytes.toNat block)
  padding.unpad? (Bytes.ofNat key.size message)

/-- The chunks of the blocks, if every block has one. -/
def decryptBlocks? (key : PrivateKey) (padding : Padding) : List Bytes → Option Bytes
  | [] => some []
  | block :: rest => do
    let chunk ← key.decryptBlock? padding block
    let chunks ← decryptBlocks? key padding rest
    some (chunk ++ chunks)

def decrypt (key : PrivateKey) (padding : Padding) (data : Bytes) : Except BlockError Bytes :=
  if data.isEmpty ∨ data.length % key.size ≠ 0 then .error (.notBlocks data.length key.size)
  else match key.decryptBlocks? padding (data.pieces key.size) with
    | some plain => .ok plain
    | none => .error .badBlock

end PrivateKey

end CipherVault.Rsa
