/-!
# Digits of a number

A number written with a fixed count of digits in some base, the most significant digit first.
Digits above the count are dropped.
-/

namespace DriveChain

namespace Digits

/-- The `width` lowest digits of a number. -/
def ofNat (base : Nat) : (width : Nat) → Nat → List Nat
  | 0, _ => []
  | width + 1, n => n / base ^ width % base :: ofNat base width n

/-- The number with the given digits. -/
def toNat (base : Nat) (digits : List Nat) : Nat :=
  digits.foldl (fun n d => base * n + d) 0

end Digits

end DriveChain
