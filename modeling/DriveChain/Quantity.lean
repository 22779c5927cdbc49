/-!
# Quantities of 64 bits

Amounts, heights, durations, sizes and deadlines are all 64-bit numbers. In a JSON document each is
a pair of 32-bit words, the low one first, because readers of such documents may hold numbers in
floating point.
-/

namespace DriveChain

/-- An amount of the smallest units of an asset. -/
abbrev Amount := UInt64

/-- A block height; zero stands for "in no block yet". -/
abbrev Height := UInt64

/-- A span counted in blocks. -/
abbrev Duration := UInt64

/-- A count of bytes on a drive. -/
abbrev StorageSize := UInt64

namespace Words

/-- The low word of a number. -/
def low (n : UInt64) : UInt32 := UInt32.ofNat n.toNat

/-- The high word of a number. -/
def high (n : UInt64) : UInt32 := UInt32.ofNat (n.toNat / UInt32.size)

/-- The number with the given words. -/
def join (low high : UInt32) : UInt64 := UInt64.ofNat (low.toNat + UInt32.size * high.toNat)

/-- How a number is shown as a pair of words. -/
def display (n : UInt64) : String :=
  "[" ++ toString (low n).toNat ++ ", " ++ toString (high n).toNat ++ "]"

end Words

end DriveChain
