import DriveChain.Quantity

/-!
# Deadlines

A deadline counts milliseconds from the start of the network. Instants are Unix milliseconds, within
the years that a calendar date can name. Both are reckoned in words of 64 bits, instants with a sign.
Towards a deadline nothing is checked; on the way back, what does not fit is no instant.
-/

namespace DriveChain

/-- Milliseconds from the start of the network. -/
abbrev Deadline := UInt64

namespace Instant

/-- The start of the network. -/
def epoch : Int := 1459468800000

/-- The first instant that a date can name. -/
def earliest : Int := -8334601228800000

/-- The last instant that a date can name. -/
def latest : Int := 8210266876799999

/-- Whether a date can name the instant. -/
def isValid (unixMillis : Int) : Bool :=
  earliest ≤ unixMillis && unixMillis ≤ latest

/-- The milliseconds from the start of the network, in 64 bits whatever comes of it. -/
def sinceEpoch (unixMillis : Int64) : Int64 :=
  unixMillis - Int64.ofInt epoch

/-- The deadline at an instant; before the start of the network it is zero. -/
def deadline (unixMillis : Int) : Deadline :=
  (max (sinceEpoch (Int64.ofInt unixMillis)) 0).toUInt64

end Instant

namespace Signed

/-- The same number with a sign, if it leaves the top bit free. -/
def ofWord? (n : UInt64) : Option Int64 :=
  if n ≤ Int64.maxValue.toUInt64 then some n.toInt64 else none

/-- The sum, unless it overflows. -/
def add? (a b : Int64) : Option Int64 :=
  if (a + b).toInt = a.toInt + b.toInt then some (a + b) else none

end Signed

/-- The instant of a deadline, if a date can name it. -/
def Deadline.instant? (deadline : Deadline) : Option Int := do
  let millis ← Signed.ofWord? deadline
  let unixMillis ← Signed.add? millis (Int64.ofInt Instant.epoch)
  if Instant.isValid unixMillis.toInt then some unixMillis.toInt else none

end DriveChain
