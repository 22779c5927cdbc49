import DriveChain.Octets.LittleEndian

/-!
# RIPEMD-160

Two lines of eighty steps run over the same sixteen words of a block, each with its own word order,
turns, constants and order of the five mixing functions; their results are added into the state.
-/

namespace DriveChain

namespace Ripemd

/-- The five words that a block is mixed into. -/
structure State where
  a : UInt32
  b : UInt32
  c : UInt32
  d : UInt32
  e : UInt32

/-- The words before the first block. -/
def State.initial : State :=
  ⟨0x67452301, 0xEFCDAB89, 0x98BADCFE, 0x10325476, 0xC3D2E1F0⟩

/-- Turns a word left by a count between 1 and 31. -/
def turn (word count : UInt32) : UInt32 :=
  (word <<< count) ||| (word >>> (32 - count))

/-- The mixing function of the left line's round; the right line takes them in the other order. -/
def mix : (round : Nat) → UInt32 → UInt32 → UInt32 → UInt32
  | 0, x, y, z => x ^^^ y ^^^ z
  | 1, x, y, z => (x &&& y) ||| (~~~ x &&& z)
  | 2, x, y, z => (x ||| ~~~ y) ^^^ z
  | 3, x, y, z => (x &&& z) ||| (y &&& ~~~ z)
  | _, x, y, z => x ^^^ (y ||| ~~~ z)

/-- Sixteen steps of a line: each takes one word of the block and turns by one count. -/
structure Round where
  mixer : Nat
  constant : UInt32
  words : List Nat
  turns : List UInt32

/-- The five rounds of the left line, with its word orders, turns and constants. -/
def leftLine : List Round :=
  [⟨0, 0x00000000, [0, 1, 2, 3, 4, 5, 6, 7, 8, 9, 10, 11, 12, 13, 14, 15],
     [11, 14, 15, 12, 5, 8, 7, 9, 11, 13, 14, 15, 6, 7, 9, 8]⟩,
   ⟨1, 0x5A827999, [7, 4, 13, 1, 10, 6, 15, 3, 12, 0, 9, 5, 2, 14, 11, 8],
     [7, 6, 8, 13, 11, 9, 7, 15, 7, 12, 15, 9, 11, 7, 13, 12]⟩,
   ⟨2, 0x6ED9EBA1, [3, 10, 14, 4, 9, 15, 8, 1, 2, 7, 0, 6, 13, 11, 5, 12],
     [11, 13, 6, 7, 14, 9, 13, 15, 14, 8, 13, 6, 5, 12, 7, 5]⟩,
   ⟨3, 0x8F1BBCDC, [1, 9, 11, 10, 0, 8, 12, 4, 13, 3, 7, 15, 14, 5, 6, 2],
     [11, 12, 14, 15, 14, 15, 9, 8, 9, 14, 5, 6, 8, 6, 5, 12]⟩,
   ⟨4, 0xA953FD4E, [4, 0, 5, 9, 7, 12, 2, 10, 14, 1, 3, 8, 11, 6, 15, 13],
     [9, 15, 5, 11, 6, 8, 13, 12, 5, 12, 13, 14, 11, 8, 5, 6]⟩]

/-- The five rounds of the right line, with its word orders, turns and constants. -/
def rightLine : List Round :=
  [⟨4, 0x50A28BE6, [5, 14, 7, 0, 9, 2, 11, 4, 13, 6, 15, 8, 1, 10, 3, 12],
     [8, 9, 9, 11, 13, 15, 15, 5, 7, 7, 8, 11, 14, 14, 12, 6]⟩,
   ⟨3, 0x5C4DD124, [6, 11, 3, 7, 0, 13, 5, 10, 14, 15, 8, 12, 4, 9, 1, 2],
     [9, 13, 15, 7, 12, 8, 9, 11, 7, 7, 12, 7, 6, 15, 13, 11]⟩,
   ⟨2, 0x6D703EF3, [15, 5, 1, 3, 7, 14, 6, 9, 11, 8, 12, 2, 10, 0, 4, 13],
     [9, 7, 15, 11, 8, 6, 6, 14, 12, 13, 5, 14, 13, 13, 7, 5]⟩,
   ⟨1, 0x7A6D76E9, [8, 6, 4, 1, 3, 11, 15, 0, 5, 12, 2, 13, 9, 7, 10, 14],
     [15, 5, 8, 11, 14, 14, 6, 14, 6, 9, 12, 9, 12, 5, 15, 8]⟩,
   ⟨0, 0x00000000, [12, 15, 10, 4, 1, 5, 8, 7, 6, 2, 13, 14, 0, 3, 9, 11],
     [8, 5, 12, 9, 12, 5, 14, 6, 8, 13, 6, 5, 15, 13, 11, 11]⟩]

/-- One step: the first word takes in a mix of the next three, a word of the block and a
constant. -/
def step (mixer : Nat) (constant : UInt32) (s : State) (word count : UInt32) : State :=
  ⟨s.e, turn (s.a + mix mixer s.b s.c s.d + word + constant) count + s.e, s.b, turn s.c 10, s.d⟩

/-- The sixteen steps of a round. -/
def runRound (block : Array UInt32) (s : State) (r : Round) : State :=
  (r.words.zip r.turns).foldl
    (fun s (index, count) => step r.mixer r.constant s (block.getD index 0) count) s

/-- The five rounds of a line over one block. -/
def runLine (block : Array UInt32) (line : List Round) (s : State) : State :=
  line.foldl (runRound block) s

/-- Both lines run over the block, and what they come to is added into the state crosswise. -/
def compress (s : State) (block : Array UInt32) : State :=
  let l := runLine block leftLine s
  let r := runLine block rightLine s
  ⟨s.b + l.c + r.d, s.c + l.d + r.e, s.d + l.e + r.a, s.e + l.a + r.b, s.a + l.b + r.c⟩

/-- The next `count` words and the bytes behind them; missing bytes count as zero. -/
def words : (count : Nat) → List UInt8 → List UInt32 × List UInt8
  | 0, bytes => ([], bytes)
  | count + 1, a :: b :: c :: d :: rest =>
    let word := a.toUInt32 ||| (b.toUInt32 <<< 8) ||| (c.toUInt32 <<< 16) ||| (d.toUInt32 <<< 24)
    let (more, rest') := words count rest
    (word :: more, rest')
  | _, _ => ([], [])

/-- Takes in that many blocks, one after the other. -/
def absorb : (blocks : Nat) → State → List UInt8 → State
  | 0, s, _ => s
  | blocks + 1, s, bytes =>
    let (block, rest) := words 16 bytes
    absorb blocks (compress s block.toArray) rest

/-- One marker byte, zeros up to the last eight bytes of a block, and the length in bits. -/
def padding (length : Nat) : List UInt8 :=
  0x80 :: (List.replicate ((119 - length % 64) % 64) 0 ++ LittleEndian.bytes 8 (8 * length))

/-- The twenty bytes that are left when the padded message has been taken in. -/
def digest (message : List UInt8) : List UInt8 :=
  let length := message.length
  let s := absorb ((length + 72) / 64) .initial (message ++ padding length)
  bytes32 s.a ++ bytes32 s.b ++ bytes32 s.c ++ bytes32 s.d ++ bytes32 s.e

theorem length_digest (message : List UInt8) : (digest message).length = 20 := by
  simp [digest, bytes32]

end Ripemd

end DriveChain
