import CipherVault.Bytes
/-!
# ChaCha20

The keystream block of a 32-byte key, a twelve-byte nonce and a block counter.  The state is four
rows of four words, so a round of four parallel quarter rounds is one operation on rows.
-/

namespace CipherVault.ChaCha20

structure Row where
  x0 : UInt32
  x1 : UInt32
  x2 : UInt32
  x3 : UInt32
deriving DecidableEq, Repr, Inhabited

namespace Row

def add (u v : Row) : Row :=
  ⟨u.x0 + v.x0, u.x1 + v.x1, u.x2 + v.x2, u.x3 + v.x3⟩

@[inline]
def rotateLeft (x n : UInt32) : UInt32 :=
  (x <<< n) ||| (x >>> (32 - n))

/-- Exclusive or, then each word rotated `n` bits to the left. -/
def xorRotate (u v : Row) (n : UInt32) : Row :=
  ⟨rotateLeft (u.x0 ^^^ v.x0) n, rotateLeft (u.x1 ^^^ v.x1) n, rotateLeft (u.x2 ^^^ v.x2) n,
    rotateLeft (u.x3 ^^^ v.x3) n⟩

/-- Each word moves one place to the front. -/
def turn1 (u : Row) : Row := ⟨u.x1, u.x2, u.x3, u.x0⟩

def turn2 (u : Row) : Row := ⟨u.x2, u.x3, u.x0, u.x1⟩

def turn3 (u : Row) : Row := ⟨u.x3, u.x0, u.x1, u.x2⟩

def wordBytes (w : UInt32) : Bytes :=
  [w.toUInt8, (w >>> 8).toUInt8, (w >>> 16).toUInt8, (w >>> 24).toUInt8]

def toBytes (u : Row) : Bytes :=
  wordBytes u.x0 ++ wordBytes u.x1 ++ wordBytes u.x2 ++ wordBytes u.x3

end Row

structure State where
  a : Row
  b : Row
  c : Row
  d : Row
deriving DecidableEq, Repr

namespace State

/-- Four quarter rounds, one on each column. -/
def columnRound (s : State) : State :=
  let a := s.a.add s.b
  let d := s.d.xorRotate a 16
  let c := s.c.add d
  let b := s.b.xorRotate c 12
  let a := a.add b
  let d := d.xorRotate a 8
  let c := c.add d
  let b := b.xorRotate c 7
  ⟨a, b, c, d⟩

/-- A round on the columns and one on the diagonals. -/
def doubleRound (s : State) : State :=
  let s := s.columnRound
  let s := columnRound ⟨s.a, s.b.turn1, s.c.turn2, s.d.turn3⟩
  ⟨s.a, s.b.turn3, s.c.turn2, s.d.turn1⟩

def rounds : (count : Nat) → State → State
  | 0, s => s
  | count + 1, s => rounds count s.doubleRound

def add (s t : State) : State :=
  ⟨s.a.add t.a, s.b.add t.b, s.c.add t.c, s.d.add t.d⟩

def toBytes (s : State) : Bytes :=
  s.a.toBytes ++ s.b.toBytes ++ s.c.toBytes ++ s.d.toBytes

end State

/-- Little-endian words; a rest of fewer than four bytes is dropped. -/
def words : Bytes → List UInt32
  | a :: b :: c :: d :: rest =>
    (a.toUInt32 ||| b.toUInt32 <<< 8 ||| c.toUInt32 <<< 16 ||| d.toUInt32 <<< 24) :: words rest
  | _ => []

def row (ws : List UInt32) : Row :=
  ⟨ws.getD 0 0, ws.getD 1 0, ws.getD 2 0, ws.getD 3 0⟩

/-- The state before the rounds: constants, key, counter, nonce. -/
def start (key nonce : Bytes) (counter : UInt32) : State :=
  let keyWords := words key
  ⟨⟨0x61707865, 0x3320646e, 0x79622d32, 0x6b206574⟩, row keyWords, row (keyWords.drop 4),
    row (counter :: words nonce)⟩

/-- Sixty-four bytes of keystream. -/
def block (key nonce : Bytes) (counter : UInt32) : Bytes :=
  let s := start key nonce counter
  ((State.rounds 10 s).add s).toBytes

/-- `count` blocks of keystream, the first with the given counter. -/
def keystream (key nonce : Bytes) : (count : Nat) → UInt32 → Bytes
  | 0, _ => []
  | count + 1, counter => block key nonce counter ++ keystream key nonce count (counter + 1)

@[simp]
theorem length_block (key nonce : Bytes) (counter : UInt32) :
    (block key nonce counter).length = 64 := rfl

end CipherVault.ChaCha20
