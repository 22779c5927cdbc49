import DriveChain.Digest
import DriveChain.Octets.Hex
import DriveChain.Octets.LittleEndian
import DriveChain.Quantity

/-!
# Written identifiers

Asset and namespace identifiers are 64-bit numbers. They are cut from a digest, whose first eight
bytes are two little-endian words, and written as sixteen hexadecimal digits.
-/

namespace DriveChain

/-- Why a text or a number is not an identifier. -/
inductive IdentifierError where
  | length (found : Nat)
  | digits
  | namespaceBit (id : UInt64)
deriving DecidableEq, Repr

namespace IdentifierError

/-- What is said about the error; a number is shown in sixteen digits. -/
def message : IdentifierError → String
  | .length found => "invalid asset id: expected 16 hex chars, got " ++ toString found
  | .digits => "invalid asset id: invalid digit found in string"
  | .namespaceBit id => "invalid asset id: " ++ Hex.number 16 id.toNat ++ " has the namespace bit set"

end IdentifierError

namespace Identifier

/-- The sixteen digits of an identifier. -/
def hex (id : UInt64) : String :=
  Hex.number 16 id.toNat

/-- The number that hexadecimal digits stand for; a sign is no digit. -/
def digitsValue? (digits : List UInt8) : Option Nat :=
  (digits.mapM Hex.value?).map (Digits.toNat 16)

/-- Reads a text of sixteen bytes: hexadecimal digits, of which the first may be a plus sign. -/
def ofHex (text : String) : Except IdentifierError UInt64 :=
  let bytes := utf8 text
  if bytes.length ≠ 16 then .error (.length bytes.length)
  else
    let digits := if bytes.head? = some 43 then bytes.tail else bytes
    match digitsValue? digits with
    | none => .error .digits
    | some n => .ok (UInt64.ofNat n)

/-- The first two words of a digest. -/
def words (digest : Hash) : UInt32 × UInt32 :=
  (UInt32.ofNat (LittleEndian.value (digest.bytes.take 4)),
    UInt32.ofNat (LittleEndian.value ((digest.bytes.drop 4).take 4)))

end Identifier

end DriveChain
