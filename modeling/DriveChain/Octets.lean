/-!
# Octet strings of a fixed length

Keys, hashes and signatures are byte strings whose length never changes, so the length is part of
the type. Nothing else is: an all-zero key is an octet string like any other, and it is the reader
of a message who takes it for an absent one.
-/

namespace DriveChain

/-- A string of exactly `n` bytes. -/
structure Octets (n : Nat) where
  bytes : List UInt8
  length_bytes : bytes.length = n
deriving DecidableEq

namespace Octets

variable {n : Nat}

@[ext] theorem ext {a b : Octets n} (h : a.bytes = b.bytes) : a = b := by
  cases a; cases b; cases h; rfl

/-- The bytes as an octet string, if there are exactly `n` of them. -/
def ofList? (n : Nat) (bytes : List UInt8) : Option (Octets n) :=
  if h : bytes.length = n then some ⟨bytes, h⟩ else none

/-- The octet string of `n` zeros. -/
def zero (n : Nat) : Octets n :=
  ⟨List.replicate n 0, List.length_replicate⟩

instance : Inhabited (Octets n) := ⟨zero n⟩

/-- Whether all bytes are zero. -/
def isZero (a : Octets n) : Bool :=
  a.bytes.all (· == 0)

/-- An all-zero octet string stands for an absent one on the wire. -/
def nonzero? (a : Octets n) : Option (Octets n) :=
  if a.isZero then none else some a

/-- Byte by byte exclusive or. -/
def xor (a b : Octets n) : Octets n :=
  ⟨List.zipWith (· ^^^ ·) a.bytes b.bytes, by
    rw [List.length_zipWith, a.length_bytes, b.length_bytes, Nat.min_self]⟩

/-- Octet strings are ordered by their first differing byte. -/
def compare (a b : Octets n) : Ordering :=
  go a.bytes b.bytes
where
  go : List UInt8 → List UInt8 → Ordering
    | [], [] => .eq
    | [], _ :: _ => .lt
    | _ :: _, [] => .gt
    | x :: xs, y :: ys => (Ord.compare x y).then (go xs ys)

end Octets

/-- The public half of a key pair. -/
abbrev Key := Octets 32

/-- A 32-byte digest or token. -/
abbrev Hash := Octets 32

/-- A signature, whose first half goes into the hash of a transaction. -/
abbrev Signature := Octets 64

/-- The bytes of a text in UTF-8. -/
def utf8 (text : String) : List UInt8 :=
  text.toList.flatMap String.utf8EncodeChar

end DriveChain
