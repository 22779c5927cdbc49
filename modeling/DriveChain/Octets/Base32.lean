import DriveChain.Octets.Digits

/-!
# Base 32

The alphabet of RFC 4648, without padding: the letters `A` to `Z`, then the digits `2` to `7`.
Five bytes make a group of eight characters. Addresses are whole groups, so bytes and characters
beyond the last whole group have no written form here.
-/

namespace DriveChain

namespace Base32

/-- The character of a number below thirty-two. -/
def symbol (n : Nat) : Char :=
  if n < 26 then Char.ofNat (65 + n) else Char.ofNat (24 + n)

/-- The number of an upper-case symbol. -/
def value? (c : Char) : Option Nat :=
  let n := c.toNat
  if 65 ≤ n ∧ n ≤ 90 then some (n - 65)
  else if 50 ≤ n ∧ n ≤ 55 then some (n - 24)
  else none

/-- The eight symbols of five bytes. -/
def encodeGroup (bytes : List UInt8) : List Char :=
  (Digits.ofNat 32 8 (Digits.toNat 256 (bytes.map UInt8.toNat))).map symbol

/-- The five bytes of the numbers of eight symbols. -/
def decodeGroup (values : List Nat) : List UInt8 :=
  (Digits.ofNat 256 5 (Digits.toNat 32 values)).map UInt8.ofNat

/-- The symbols of all whole groups of bytes. -/
def encode : List UInt8 → List Char
  | a :: b :: c :: d :: e :: rest => encodeGroup [a, b, c, d, e] ++ encode rest
  | _ => []

/-- The bytes of all whole groups of numbers. -/
def decodeValues : List Nat → List UInt8
  | a :: b :: c :: d :: e :: f :: g :: h :: rest =>
    decodeGroup [a, b, c, d, e, f, g, h] ++ decodeValues rest
  | _ => []

/-- Reads upper-case symbols; any other character is refused. -/
def decode? (text : List Char) : Option (List UInt8) :=
  (text.mapM value?).map decodeValues

end Base32

end DriveChain
