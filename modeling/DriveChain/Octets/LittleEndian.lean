/-!
# Little-endian numbers

A number takes a fixed count of bytes, the least significant first. Both directions are recursions
on the bytes, so that each law about them is one induction.
-/

namespace DriveChain

namespace LittleEndian

/-- The `width` lowest bytes of a number. -/
def bytes : (width : Nat) → Nat → List UInt8
  | 0, _ => []
  | width + 1, n => UInt8.ofNat n :: bytes width (n / 256)

/-- The number of little-endian bytes. -/
def value : List UInt8 → Nat
  | [] => 0
  | b :: rest => b.toNat + 256 * value rest

@[simp] theorem length_bytes (width n : Nat) : (bytes width n).length = width := by
  induction width generalizing n with
  | zero => rfl
  | succ width ih => simp [bytes, ih]

end LittleEndian

/-- A 16-bit number in two bytes. -/
def bytes16 (n : UInt16) : List UInt8 := LittleEndian.bytes 2 n.toNat

/-- A 32-bit number in four bytes. -/
def bytes32 (n : UInt32) : List UInt8 := LittleEndian.bytes 4 n.toNat

/-- A 64-bit number in eight bytes. -/
def bytes64 (n : UInt64) : List UInt8 := LittleEndian.bytes 8 n.toNat

end DriveChain
