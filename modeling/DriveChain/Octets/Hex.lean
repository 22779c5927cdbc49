import DriveChain.Octets
import DriveChain.Octets.Digits
import DriveChain.Text.Quotation

/-!
# Hexadecimal text

Bytes are written as two upper-case digits each and read in either case. Reading works on the bytes
of the text, so a position in an error counts bytes, and a byte that is no digit is reported alone
even when it is part of a longer character.
-/

namespace DriveChain

/-- Why a text is not the hexadecimal form of a byte string. -/
inductive HexError where
  | oddLength
  | wrongLength
  | invalidDigit (byte : UInt8) (position : Nat)
deriving DecidableEq, Repr

namespace Hex

/-- The upper-case digit of a number below sixteen. -/
def digit (n : Nat) : Char :=
  if n < 10 then Char.ofNat (48 + n) else Char.ofNat (55 + n)

/-- The two digits of a byte, the high one first. -/
def byteDigits (b : UInt8) : List Char :=
  [digit (b.toNat / 16), digit (b.toNat % 16)]

/-- The digits of all bytes, one after the other. -/
def encode (bytes : List UInt8) : String :=
  String.ofList (bytes.flatMap byteDigits)

/-- The value of a digit in either case. -/
def value? (b : UInt8) : Option Nat :=
  let n := b.toNat
  if 48 ≤ n ∧ n ≤ 57 then some (n - 48)
  else if 65 ≤ n ∧ n ≤ 70 then some (n - 55)
  else if 97 ≤ n ∧ n ≤ 102 then some (n - 87)
  else none

/-- A number in a fixed count of digits. -/
def number (width n : Nat) : String :=
  String.ofList ((Digits.ofNat 16 width n).map digit)

/-- Reads pairs of digits from the given position on; a single last byte is not looked at. -/
def decodePairs (position : Nat) : List UInt8 → Except HexError (List UInt8)
  | high :: low :: rest =>
    match value? high with
    | none => .error (.invalidDigit high position)
    | some h =>
      match value? low with
      | none => .error (.invalidDigit low (position + 1))
      | some l =>
        match decodePairs (position + 2) rest with
        | .error e => .error e
        | .ok bytes => .ok (UInt8.ofNat (16 * h + l) :: bytes)
  | _ => .ok []

/-- Reads a text of any even length. -/
def decode (text : String) : Except HexError (List UInt8) :=
  let digits := utf8 text
  if digits.length % 2 = 1 then .error .oddLength else decodePairs 0 digits

theorem length_of_decodePairs {digits bytes : List UInt8} {position : Nat}
    (h : decodePairs position digits = .ok bytes) : bytes.length = digits.length / 2 := by
  match digits with
  | [] => simp only [decodePairs, Except.ok.injEq] at h; subst h; rfl
  | [_] => simp only [decodePairs, Except.ok.injEq] at h; subst h; simp
  | high :: low :: rest =>
    rw [decodePairs] at h
    split at h
    · simp at h
    · split at h
      · simp at h
      · split at h
        · simp at h
        · next tail hrest =>
          simp only [Except.ok.injEq] at h
          subst h
          have := length_of_decodePairs hrest
          simp only [List.length_cons, this]
          omega

end Hex

namespace Octets

variable {n : Nat}

/-- The digits of an octet string. -/
def hex (a : Octets n) : String :=
  Hex.encode a.bytes

/-- Reads exactly `n` bytes. The length is judged before the digits are. -/
def ofHex (n : Nat) (text : String) : Except HexError (Octets n) :=
  let digits := utf8 text
  if digits.length % 2 = 1 then .error .oddLength
  else if hlen : digits.length / 2 = n then
    match h : Hex.decodePairs 0 digits with
    | .error e => .error e
    | .ok bytes => .ok ⟨bytes, (Hex.length_of_decodePairs h).trans hlen⟩
  else .error .wrongLength

end Octets

/-- How a hash is shown in a listing of values. -/
def Hash.describe (a : Hash) : String :=
  "Hash(" ++ a.hex ++ ")"

/-- How a signature is shown in a listing of values: by its first eight bytes. -/
def Signature.describe (a : Signature) : String :=
  "Signature(" ++ Hex.encode (a.bytes.take 8) ++ "..)"

/-- A byte shown as the character of the same number, in single quotes; quotes, backslashes and
characters without a picture of their own are escaped. -/
def quotedByte (b : UInt8) : String :=
  let n := b.toNat
  let shown : String :=
    if n = 0 then "\\0"
    else if n = 9 then "\\t"
    else if n = 10 then "\\n"
    else if n = 13 then "\\r"
    else if n = 39 then "\\'"
    else if n = 92 then "\\\\"
    else if n < 32 ∨ (127 ≤ n ∧ n ≤ 160) ∨ n = 173 then
      Quotation.escape n
    else String.singleton (Char.ofNat n)
  "'" ++ shown ++ "'"

namespace HexError

/-- What is said about the error; a position counts bytes. -/
def message : HexError → String
  | .oddLength => "Odd number of digits"
  | .wrongLength => "Invalid string length"
  | .invalidDigit byte position =>
    "Invalid character " ++ quotedByte byte ++ " at position " ++ toString position

end HexError

end DriveChain
