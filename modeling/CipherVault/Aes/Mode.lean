import CipherVault.Aes.Schedule
/-!
# Block modes

Electronic codebook and cipher block chaining over whole blocks, and their use on bytes with or
without padding.  A mode refuses bytes that are no whole number of blocks and an initialization
vector that is no block.
-/

namespace CipherVault

/-! ## PKCS#7 padding

One to sixteen bytes are added, each holding their number, so a text of whole blocks grows by one
block.  Removal checks every padding byte. -/

namespace Pkcs7

/-- How many bytes are added to `length` bytes. -/
def padLength (length : Nat) : Nat :=
  16 - length % 16

def pad (bs : Bytes) : Bytes :=
  bs ++ List.replicate (padLength bs.length) (UInt8.ofNat (padLength bs.length))

def unpad? (bs : Bytes) : Option Bytes :=
  match bs.getLast? with
  | none => none
  | some last =>
    let count := last.toNat
    let kept := bs.length - count
    if 1 ≤ count ∧ count ≤ 16 ∧ bs.drop kept = List.replicate count last then
      some (bs.take kept)
    else none

end Pkcs7

/-! ## Modes -/

namespace Aes

inductive Mode where
  | ecb
  | cbc
deriving DecidableEq, Repr

inductive Padding where
  | pkcs7
  | none
deriving DecidableEq, Repr

namespace Padding

def apply : Padding → Bytes → Bytes
  | pkcs7, bs => Pkcs7.pad bs
  | none, bs => bs

def remove? : Padding → Bytes → Option Bytes
  | pkcs7, bs => Pkcs7.unpad? bs
  | none, bs => some bs

end Padding

/-- What keeps a block mode from running. -/
inductive ModeError where
  /-- The initialization vector is no block. -/
  | badIv
  /-- The bytes are no whole number of blocks. -/
  | notAligned
  /-- The padding is wrong. -/
  | badPadding
deriving DecidableEq, Repr

/-- Why ciphertext that is no whole number of blocks is refused: where padding is expected, it
cannot be padded text. -/
def Padding.refusal : Padding → ModeError
  | pkcs7 => .badPadding
  | none => .notAligned

/-- Each block is combined with the one before it in the ciphertext. -/
def chain (schedule : Schedule) : (previous : Block) → List Block → List Block
  | _, [] => []
  | previous, block :: rest =>
    let sealedBlock := schedule.encrypt (block.xor previous)
    sealedBlock :: chain schedule sealedBlock rest

def unchain (schedule : Schedule) : (previous : Block) → List Block → List Block
  | _, [] => []
  | previous, block :: rest =>
    (schedule.decrypt block).xor previous :: unchain schedule block rest

namespace Mode

/-- The block operation of a mode; codebook mode has no use for an initialization vector. -/
def runBlocks (mode : Mode) (codebook : Block → Block) (chained : Block → List Block → List Block)
    (iv : Bytes) (blocks : List Block) : Except ModeError (List Block) :=
  match mode with
  | ecb => .ok (blocks.map codebook)
  | cbc => match block? iv with
    | some start => .ok (chained start blocks)
    | none => .error .badIv

def encrypt (mode : Mode) (padding : Padding) (schedule : Schedule) (iv data : Bytes) :
    Except ModeError Bytes :=
  match blocks? (padding.apply data) with
  | none => .error .notAligned
  | some blocks =>
    (mode.runBlocks schedule.encrypt (chain schedule) iv blocks).map blockBytes

def decrypt (mode : Mode) (padding : Padding) (schedule : Schedule) (iv data : Bytes) :
    Except ModeError Bytes :=
  match blocks? data with
  | none => .error padding.refusal
  | some blocks => do
    let plain ← mode.runBlocks schedule.decrypt (unchain schedule) iv blocks
    match padding.remove? (blockBytes plain) with
    | some data => .ok data
    | none => .error .badPadding

end Mode

end Aes

end CipherVault
