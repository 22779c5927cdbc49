import DriveChain.Octets
import DriveChain.Digest.Sha3
import DriveChain.Digest.Ripemd

/-!
# Digests

The three digests that identifiers and signatures are made of. Everything that depends on them uses
only that their lengths are fixed.
-/

namespace DriveChain

/-- The SHA3-256 digest of a message. -/
def sha3 (message : List UInt8) : Hash :=
  ⟨Sha3.digest message, Sha3.length_digest message⟩

/-- The RIPEMD-160 digest of a message. -/
def ripemd160 (message : List UInt8) : Octets 20 :=
  ⟨Ripemd.digest message, Ripemd.length_digest message⟩

/-- Four bytes that catch a mistyped address. -/
def checksum (message : List UInt8) : Octets 4 :=
  ⟨(sha3 message).bytes.take 4, by rw [List.length_take, (sha3 message).length_bytes]; rfl⟩

end DriveChain
