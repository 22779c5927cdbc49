import DriveChain.Octets.LittleEndian

/-!
# SHA3-256

The permutation works on five rows of five 64-bit lanes. A message is padded to blocks of 136 bytes,
each block is mixed into the first seventeen lanes and permuted, and the first four lanes of the
last state are the digest.
-/

namespace DriveChain

namespace Sha3

/-- Five lanes in a row. -/
structure Row where
  x0 : UInt64
  x1 : UInt64
  x2 : UInt64
  x3 : UInt64
  x4 : UInt64

/-- The five rows that the permutation works on. -/
structure State where
  y0 : Row
  y1 : Row
  y2 : Row
  y3 : Row
  y4 : Row

/-- The row of five zero lanes. -/
def Row.zero : Row := ⟨0, 0, 0, 0, 0⟩

/-- Lane by lane exclusive or. -/
def Row.xor (a b : Row) : Row :=
  ⟨a.x0 ^^^ b.x0, a.x1 ^^^ b.x1, a.x2 ^^^ b.x2, a.x3 ^^^ b.x3, a.x4 ^^^ b.x4⟩

/-- The state before the first block. -/
def State.zero : State := ⟨.zero, .zero, .zero, .zero, .zero⟩

/-- Turns a lane left by a count between 1 and 63. -/
@[inline] def turn (lane : UInt64) (count : UInt64) : UInt64 :=
  (lane <<< count) ||| (lane >>> (64 - count))

/-- What each column takes in from the parities of its two neighbours. -/
def columnMix (s : State) : Row :=
  let p := (s.y0.xor s.y1).xor ((s.y2.xor s.y3).xor s.y4)
  ⟨p.x4 ^^^ turn p.x1 1, p.x0 ^^^ turn p.x2 1, p.x1 ^^^ turn p.x3 1, p.x2 ^^^ turn p.x4 1,
    p.x3 ^^^ turn p.x0 1⟩

/-- Each lane takes in the next one negated and the one after that. -/
def rowMix (r : Row) : Row :=
  ⟨r.x0 ^^^ (~~~ r.x1 &&& r.x2), r.x1 ^^^ (~~~ r.x2 &&& r.x3), r.x2 ^^^ (~~~ r.x3 &&& r.x4),
    r.x3 ^^^ (~~~ r.x4 &&& r.x0), r.x4 ^^^ (~~~ r.x0 &&& r.x1)⟩

/-- One round: columns are mixed, lanes are turned and moved, rows are mixed, and the round's
constant goes into the first lane. -/
def round (s : State) (constant : UInt64) : State :=
  let d := columnMix s
  let a := s.y0.xor d
  let b := s.y1.xor d
  let c := s.y2.xor d
  let e := s.y3.xor d
  let f := s.y4.xor d
  let r0 := rowMix ⟨a.x0, turn b.x1 44, turn c.x2 43, turn e.x3 21, turn f.x4 14⟩
  let r1 := rowMix ⟨turn a.x3 28, turn b.x4 20, turn c.x0 3, turn e.x1 45, turn f.x2 61⟩
  let r2 := rowMix ⟨turn a.x1 1, turn b.x2 6, turn c.x3 25, turn e.x4 8, turn f.x0 18⟩
  let r3 := rowMix ⟨turn a.x4 27, turn b.x0 36, turn c.x1 10, turn e.x2 15, turn f.x3 56⟩
  let r4 := rowMix ⟨turn a.x2 62, turn b.x3 55, turn c.x4 39, turn e.x0 41, turn f.x1 2⟩
  ⟨{ r0 with x0 := r0.x0 ^^^ constant }, r1, r2, r3, r4⟩

/-- The constants of the twenty-four rounds. -/
def roundConstants : List UInt64 :=
  [0x0000000000000001, 0x0000000000008082, 0x800000000000808A, 0x8000000080008000,
   0x000000000000808B, 0x0000000080000001, 0x8000000080008081, 0x8000000000008009,
   0x000000000000008A, 0x0000000000000088, 0x0000000080008009, 0x000000008000000A,
   0x000000008000808B, 0x800000000000008B, 0x8000000000008089, 0x8000000000008003,
   0x8000000000008002, 0x8000000000000080, 0x000000000000800A, 0x800000008000000A,
   0x8000000080008081, 0x8000000000008080, 0x0000000080000001, 0x8000000080008008]

/-- All rounds, one after the other. -/
def permute (s : State) : State :=
  roundConstants.foldl round s

/-- The lane in the first eight bytes, and the bytes behind it; missing bytes count as zero. -/
def lane : List UInt8 → UInt64 × List UInt8
  | a :: b :: c :: d :: e :: f :: g :: h :: rest =>
    (a.toUInt64 ||| (b.toUInt64 <<< 8) ||| (c.toUInt64 <<< 16) ||| (d.toUInt64 <<< 24) |||
      (e.toUInt64 <<< 32) ||| (f.toUInt64 <<< 40) ||| (g.toUInt64 <<< 48) ||| (h.toUInt64 <<< 56),
      rest)
  | _ => (0, [])

/-- The row in the first forty bytes, and the bytes behind it. -/
def row (bytes : List UInt8) : Row × List UInt8 :=
  let (x0, r0) := lane bytes
  let (x1, r1) := lane r0
  let (x2, r2) := lane r1
  let (x3, r3) := lane r2
  let (x4, r4) := lane r3
  (⟨x0, x1, x2, x3, x4⟩, r4)

/-- Mixes the next 136 bytes into the state and permutes it; gives the bytes behind them too. -/
def absorbBlock (s : State) (bytes : List UInt8) : State × List UInt8 :=
  let (p0, r0) := row bytes
  let (p1, r1) := row r0
  let (p2, r2) := row r1
  let (x0, r3) := lane r2
  let (x1, r4) := lane r3
  (permute ⟨s.y0.xor p0, s.y1.xor p1, s.y2.xor p2,
    { s.y3 with x0 := s.y3.x0 ^^^ x0, x1 := s.y3.x1 ^^^ x1 }, s.y4⟩, r4)

/-- Takes in that many blocks, one after the other. -/
def absorb : (blocks : Nat) → State → List UInt8 → State
  | 0, s, _ => s
  | blocks + 1, s, bytes =>
    let (s', rest) := absorbBlock s bytes
    absorb blocks s' rest

/-- What follows a message of the given length, up to the end of its last block. -/
def padding (length : Nat) : List UInt8 :=
  let free := 136 - length % 136
  if free = 1 then [0x86] else 0x06 :: (List.replicate (free - 2) 0 ++ [0x80])

/-- The first four lanes that are left when the padded message has been taken in. -/
def digest (message : List UInt8) : List UInt8 :=
  let length := message.length
  let s := absorb (length / 136 + 1) .zero (message ++ padding length)
  bytes64 s.y0.x0 ++ bytes64 s.y0.x1 ++ bytes64 s.y0.x2 ++ bytes64 s.y0.x3

theorem length_digest (message : List UInt8) : (digest message).length = 32 := by
  simp [digest, bytes64]

end Sha3

end DriveChain
