import DriveChain.Octets.LittleEndian
import DriveChain.Transaction.Error
import DriveChain.Quantity

/-!
# Reading bytes

A cursor is a place in a byte string together with the bytes from there on. A reader takes bytes at
the cursor and moves it; it fails where too few bytes are left, and then it says where the cursor
stood. The cursor is kept when a reader fails, so one can go on from there.
-/

namespace DriveChain

/-- A place in a byte string, and the bytes from there on. -/
structure Cursor where
  position : Nat
  rest : List UInt8
deriving DecidableEq

namespace Cursor

/-- The cursor at the beginning of a byte string. -/
def start (bytes : List UInt8) : Cursor := ⟨0, bytes⟩

/-- The number of bytes from the cursor on. -/
def remaining (c : Cursor) : Nat := c.rest.length

/-- The cursor that many bytes further on. -/
def skip (c : Cursor) (count : Nat) : Cursor :=
  ⟨c.position + count, c.rest.drop count⟩

/-- The error of a reader who needs more bytes than are left. -/
def lacks (c : Cursor) (needed : Nat) : TransactionError :=
  .truncated c.position needed c.remaining

end Cursor

/-- What takes bytes at a cursor and moves it, or fails. -/
abbrev Reader (α : Type) := EStateM TransactionError Cursor α

namespace Reader

variable {α : Type}

/-- The next `n` bytes. -/
def octets (n : Nat) : Reader (Octets n) := fun c =>
  if h : (c.rest.take n).length = n then .ok ⟨c.rest.take n, h⟩ (c.skip n)
  else .error (c.lacks n) c

/-- A little-endian number of that many bytes. -/
def number (width : Nat) : Reader Nat := do
  let bytes ← octets width
  return LittleEndian.value bytes.bytes

/-- The next byte. -/
def word8 : Reader UInt8 := do
  return UInt8.ofNat (← number 1)

/-- The next two bytes as a number. -/
def word16 : Reader UInt16 := do
  return UInt16.ofNat (← number 2)

/-- The next four bytes as a number. -/
def word32 : Reader UInt32 := do
  return UInt32.ofNat (← number 4)

/-- A 64-bit number is read as two words, the low one first. -/
def word64 : Reader UInt64 := do
  let low ← word32
  let high ← word32
  return Words.join low high

/-- The next word, which is left where it is. -/
def peek32 : Reader UInt32 := fun c =>
  match word32 c with
  | .ok n _ => .ok n c
  | .error e _ => .error e c

/-- A cursor over the next `n` bytes, which are passed. Its positions are those of the whole. -/
def split (n : Nat) : Reader Cursor := fun c =>
  let front := c.rest.take n
  if front.length = n then .ok ⟨c.position, front⟩ (c.skip n) else .error (c.lacks n) c

/-- Runs a reader on a cursor of its own. -/
def on (cursor : Cursor) (reader : Reader α) : Reader α := fun c =>
  match reader cursor with
  | .ok a _ => .ok a c
  | .error e _ => .error e c

/-- Fails if any bytes are left. -/
def expectEnd : Reader Unit := fun c =>
  if c.rest.isEmpty then .ok () c else .error (.trailing c.position c.remaining) c

/-- The same reader again and again. -/
def times : (count : Nat) → Reader α → Reader (List α)
  | 0, _ => pure []
  | count + 1, reader => do
    let a ← reader
    let rest ← times count reader
    return a :: rest

/-- The same reader until no bytes are left, but no more often than `limit` times. -/
def untilEnd : (limit : Nat) → Reader α → Reader (List α)
  | 0, _ => pure []
  | limit + 1, reader => do
    let c ← get
    if c.rest.isEmpty then return []
    else
      let a ← reader
      let rest ← untilEnd limit reader
      return a :: rest

/-- The same reader until no bytes are left. A reader that takes bytes runs at most once for each
byte there is. -/
def many (reader : Reader α) : Reader (List α) := do
  let c ← get
  untilEnd c.remaining reader

/-- What a reader makes of a whole byte string. -/
def run (reader : Reader α) (bytes : List UInt8) : Except TransactionError α :=
  match reader (Cursor.start bytes) with
  | .ok a _ => .ok a
  | .error e _ => .error e

end Reader

/-- The number of entries of a list, which takes two bytes on the wire. -/
def wireCount (field : String) (count : Nat) : Except TransactionError UInt16 :=
  if count < UInt16.size then .ok (UInt16.ofNat count) else .error (.invalid (.manyEntries field count))

/-- Written bytes have to be as many as was announced. -/
def finish (announced : Nat) (bytes : List UInt8) : Except TransactionError (List UInt8) :=
  if bytes.length = announced then .ok bytes else .error (.sizeMismatch announced bytes.length)

end DriveChain
