import DriveChain.Transaction.Cursor

/-!
# Values one after the other

Bytes are written value by value, each in its own width, and read in the same way: who knows of
which kinds the values were reads them back. A count that its two bytes do not hold is not written
at all.
-/

namespace DriveChain

/-- A value as it is written. -/
inductive Field where
  | word8 (n : UInt8)
  | word16 (n : UInt16)
  | word32 (n : UInt32)
  | word64 (n : UInt64)
  | octets (bytes : List UInt8)
  /-- The number of entries of the list in a field. -/
  | count (field : String) (n : Nat)
deriving DecidableEq, Repr

namespace Field

/-- What has to be known of a value to read it. -/
inductive Kind where
  | word8
  | word16
  | word32
  | word64
  | octets (length : Nat)
  | count (field : String)
deriving DecidableEq, Repr

/-- What a field is, apart from its value. -/
def kind : Field → Kind
  | .word8 _ => .word8
  | .word16 _ => .word16
  | .word32 _ => .word32
  | .word64 _ => .word64
  | .octets bytes => .octets bytes.length
  | .count field _ => .count field

/-- The bytes of a value. A 64-bit number is written as two words, the low one first. -/
def bytes : Field → Except TransactionError (List UInt8)
  | .word8 n => .ok [n]
  | .word16 n => .ok (bytes16 n)
  | .word32 n => .ok (bytes32 n)
  | .word64 n => .ok (bytes32 (Words.low n) ++ bytes32 (Words.high n))
  | .octets bytes => .ok bytes
  | .count field n =>
    match wireCount field n with
    | .error e => .error e
    | .ok n => .ok (bytes16 n)

/-- The number of bytes that a value of the kind takes. -/
def Kind.width : Kind → Nat
  | .word8 => 1
  | .word16 => 2
  | .word32 => 4
  | .word64 => 8
  | .octets length => length
  | .count _ => 2

/-- Reads a value of the kind. -/
def Kind.read : Kind → Reader Field
  | .word8 => do return .word8 (← Reader.word8)
  | .word16 => do return .word16 (← Reader.word16)
  | .word32 => do return .word32 (← Reader.word32)
  | .word64 => do return .word64 (← Reader.word64)
  | .octets length => do return .octets (← Reader.octets length).bytes
  | .count field => do return .count field (← Reader.word16).toNat

/-- Writes a value behind what has been written. What cannot be written leaves it as it is. -/
def write (written : List UInt8) (field : Field) : List UInt8 × Except TransactionError Unit :=
  match field.bytes with
  | .error e => (written, .error e)
  | .ok more => (written ++ more, .ok ())

/-- Reads values of these kinds, one after the other. -/
def readAll : List Kind → Reader (List Field)
  | [] => pure []
  | kind :: rest => do
    let value ← kind.read
    let values ← readAll rest
    return value :: values

/-- The bytes of values, one after the other. -/
def writeAll (fields : List Field) : List UInt8 :=
  fields.foldl (fun written field => (write written field).1) []

end Field

end DriveChain
