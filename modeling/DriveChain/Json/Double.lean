import DriveChain.Json.Number

/-!
# Doubles and their shortest text

A decimal in a document stands for a double, which is a whole number below `2 ^ 53` times a power of
two. Where a message shows a double it has the fewest digits that still round to it, and of these
the nearest to it.
-/

namespace DriveChain

namespace Json

/-- A positive double, `mantissa * 2 ^ exponent`. -/
structure Double where
  mantissa : Nat
  exponent : Int
deriving DecidableEq, Repr

namespace Double

/-- The exponent of the smallest doubles. -/
def least : Int := -1074

/-- Two to a power, as the two sides of a fraction. -/
def power (base : Nat) (exponent : Int) : Nat × Nat :=
  (Nat.pow base exponent.toNat, Nat.pow base (-exponent).toNat)

/-- The quotient rounded to the nearest whole number, a half going to the even neighbour. -/
def roundDiv (num den : Nat) : Nat :=
  let floor := num / den
  let twice := 2 * (num % den)
  if twice > den ∨ (twice = den ∧ floor % 2 = 1) then floor + 1 else floor

/-- Whether a fraction reaches a power of two. -/
def reaches (num den : Nat) (exponent : Int) : Bool :=
  let (up, down) := power 2 exponent
  decide (den * up ≤ num * down)

/-- The double nearest to a positive fraction. -/
def nearest (num den : Nat) : Double :=
  let guess : Int := (num.log2 : Int) - den.log2
  let lead := if reaches num den guess then guess else guess - 1
  let exponent := max (lead - 52) least
  let (up, down) := power 2 exponent
  let mantissa := roundDiv (num * down) (den * up)
  if mantissa = 0x20000000000000 then ⟨0x10000000000000, exponent + 1⟩ else ⟨mantissa, exponent⟩

/-- The two sides of the fraction that a double is. -/
def fraction (d : Double) : Nat × Nat :=
  let (up, down) := power 2 d.exponent
  (d.mantissa * up, down)

/-- The largest power of ten that a double holds. -/
def largestPower : Nat := 308

/-- A fraction times a negative power of ten; very small powers are taken in several steps, each of
which is rounded. -/
def shrink : (steps : Nat) → (num den power : Nat) → Double
  | 0, _, _, _ => ⟨0, least⟩
  | steps + 1, num, den, power =>
    if num = 0 then ⟨0, least⟩
    else if power ≤ largestPower then nearest num (den * round53 (Nat.pow 10 power))
    else
      let (num, den) := (nearest num (den * round53 (Nat.pow 10 largestPower))).fraction
      shrink steps num den (power - largestPower)

/-- The double that digits and a power of ten stand for. After three steps down nothing is left of
twenty digits. -/
def ofDecimal (digits : Nat) (exponent : Int) : Double :=
  if digits = 0 then ⟨0, least⟩
  else if 0 ≤ exponent then nearest (round53 digits * round53 (Nat.pow 10 exponent.toNat)) 1
  else shrink 4 (round53 digits) 1 (-exponent).toNat

/-! ## The shortest text -/

/-- Whether `digits * 10 ^ exponent` rounds to the double. The ends of the interval do if the
mantissa is even; below a power of two the neighbour is only half as far away. -/
def holds (d : Double) (digits : Nat) (exponent : Int) : Bool :=
  let (up, down) := power 10 exponent
  let (twoUp, twoDown) := power 2 (d.exponent - 2)
  let value := digits * up * twoDown
  let unit := down * twoUp
  let below := if d.mantissa = 0x10000000000000 ∧ least < d.exponent then 1 else 2
  let low := (4 * d.mantissa - below) * unit
  let high := (4 * d.mantissa + 2) * unit
  if d.mantissa % 2 = 0 then decide (low ≤ value ∧ value ≤ high)
  else decide (low < value ∧ value < high)

/-- The neighbours of the double among the multiples of a power of ten, the nearer one first. -/
def neighbours (d : Double) (exponent : Int) : List Nat :=
  let (num, den) := d.fraction
  let (up, down) := power 10 exponent
  let num := num * down
  let den := den * up
  let near := roundDiv num den
  let floor := num / den
  [near, if near = floor then floor + 1 else floor]

/-- The first power of ten, from a power down, among whose multiples there is one that rounds to the
double. -/
def search (d : Double) : (steps : Nat) → (exponent : Int) → Nat × Int
  | 0, exponent => ((d.neighbours exponent).headD 0, exponent)
  | steps + 1, exponent =>
    match (d.neighbours exponent).find? fun n => 0 < n ∧ d.holds n exponent with
    | some n => (n, exponent)
    | none => search d steps (exponent - 1)

/-- The fewest digits that round to the double, with their power of ten. Seventeen are enough. -/
def shortest (d : Double) : Nat × Int :=
  let (num, den) := d.fraction
  let width : Int := (Nat.toDigits 10 (num / den)).length
  let small : Int := (Nat.toDigits 10 (den / (num + 1))).length
  let top := if den ≤ num then width else 1 - small + 1
  d.search 25 top

/-- A point behind the first digit, if there are more. -/
def leading (digits : List Char) : String :=
  match digits with
  | [] => ""
  | [c] => String.singleton c
  | c :: rest => String.ofList (c :: '.' :: rest)

/-- So many zeros. -/
def zeros (n : Nat) : List Char := List.replicate n '0'

/-- A power of ten behind the digits, always with its sign. -/
def exponentText (exponent : Int) : String :=
  (if exponent < 0 then "e-" else "e+") ++ toString exponent.natAbs

/-- Digits and a power of ten. From `10 ^ -5` to `10 ^ 16` the point stands in its place, and before
and behind it is at least one digit; beyond that there is an exponent. -/
def layout (digits : List Char) (exponent : Int) : String :=
  let point : Int := digits.length + exponent
  if 0 ≤ exponent ∧ point ≤ 16 then String.ofList (digits ++ zeros exponent.toNat ++ ['.', '0'])
  else if 0 < point ∧ point ≤ 16 then
    String.ofList (digits.take point.toNat ++ '.' :: digits.drop point.toNat)
  else if -5 < point ∧ point ≤ 0 then
    String.ofList ('0' :: '.' :: zeros (-point).toNat ++ digits)
  else leading digits ++ exponentText (point - 1)

/-- The text of a double that is not negative. -/
def text (d : Double) : String :=
  if d.mantissa = 0 then "0.0"
  else
    let (digits, exponent) := d.shortest
    layout (Nat.toDigits 10 digits) exponent

end Double

/-- The text of a number; a decimal is shown as the double that it stands for. -/
def Number.text : Number → String
  | .integer n => toString n
  | .decimal negative digits exponent =>
    (if negative then "-" else "") ++ (Double.ofDecimal digits exponent).text

end Json

end DriveChain
