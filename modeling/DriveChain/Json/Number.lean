import DriveChain.Json

/-!
# Numbers in a text

A number that is written without a fraction and an exponent is a whole number as long as 64 bits
hold it. All others are decimals, which have to fit into a double: at most twenty digits are kept,
and a decimal that exceeds the largest double is no number at all.
-/

namespace DriveChain

namespace Json

/-- A number rounded to its 53 leading bits, ties going to the even neighbour. -/
def round53 (n : Nat) : Nat :=
  let shift := n.log2 - 52
  let unit := Nat.pow 2 shift
  let kept := n / unit
  let dropped := n % unit
  let up := 2 * dropped > unit ∨ (2 * dropped = unit ∧ kept % 2 = 1)
  (if up then kept + 1 else kept) * unit

/-- Whether `digits * 10 ^ exponent` exceeds every double. The digits and the power are rounded
first, each on its own, and then their product is. -/
def isHuge (digits : Nat) (exponent : Int) : Bool :=
  if digits = 0 ∨ exponent < 0 then false
  else if exponent > 308 then true
  else (Nat.pow 2 54 - 1) * Nat.pow 2 970 ≤ round53 digits * round53 (Nat.pow 10 exponent.toNat)

/-- Digits that have been read: their number, and how many more there were than 64 bits hold. -/
structure Scale where
  digits : Nat
  dropped : Nat

/-- Takes a digit in, unless one was dropped before or the number outgrows 64 bits. -/
def Scale.push (s : Scale) (digit : Nat) : Scale :=
  if s.dropped = 0 ∧ 10 * s.digits + digit < UInt64.size then ⟨10 * s.digits + digit, 0⟩
  else ⟨s.digits, s.dropped + 1⟩

/-- The digits of a fraction behind a number, and how many of them were kept. -/
def pushFraction : (digits kept : Nat) → List Nat → Nat × Nat
  | digits, kept, [] => (digits, kept)
  | digits, kept, d :: rest =>
    if 10 * digits + d < UInt64.size then pushFraction (10 * digits + d) (kept + 1) rest
    else (digits, kept)

/-- The largest exponent that is told apart from greater ones. -/
def exponentLimit : Nat := 0x7FFFFFFF

/-- The number of a text's parts: its sign, the digits before the point, those behind it if there is
a point, and the exponent if there is one. The value is damaged if it exceeds every double. -/
def ofParts (negative : Bool) (whole : List Nat) (fraction : Option (List Nat))
    (exponent : Option (Bool × List Nat)) : Json :=
  let scale := whole.foldl Scale.push ⟨0, 0⟩
  let integer : Bool := fraction.isNone && exponent.isNone && scale.dropped == 0
  if integer && !negative then .number (.integer scale.digits)
  else if integer && negative && 0 < scale.digits && scale.digits ≤ 0x8000000000000000 then
    .number (.integer (-(scale.digits : Int)))
  else
    let (digits, kept) := pushFraction scale.digits 0 (fraction.getD [])
    let start : Int := scale.dropped - kept
    let size := match exponent with
      | none => 0
      | some (_, ds) => ds.foldl (fun n d => 10 * n + d) 0
    let down := match exponent with
      | none => false
      | some (down, _) => down
    let decimal : Json := .number (.decimal negative digits (if down then start - size else start + size))
    if size > exponentLimit then
      if digits ≠ 0 ∧ !down then .damaged .hugeNumber decimal
      else .number (.decimal negative 0 0)
    else if isHuge digits (if down then start - size else start + size) then .damaged .hugeNumber decimal
    else decimal

end Json

end DriveChain
