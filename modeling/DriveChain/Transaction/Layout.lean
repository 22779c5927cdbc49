/-!
# Layout of the byte form

Where the fields of a header stand, and how many bytes headers and records take. A header is the
size of the whole (4 bytes), the signature (64), the signer's key (32), the packed version (4), the
type (2), the largest fee (8) and the deadline (8). The embedded form of a header lacks the
signature, the fee and the deadline.
-/

namespace DriveChain

namespace Layout

/-- The bytes of a header. -/
def headerSize : Nat := 122

/-- The bytes of the embedded form of a header. -/
def embeddedHeaderSize : Nat := 42

/-- By how much the embedded form of a transaction is shorter. -/
def embeddedReduction : Nat := headerSize - embeddedHeaderSize

/-- Where the signature stands. -/
def signatureOffset : Nat := 4

/-- Where the signer's key stands. -/
def signerOffset : Nat := 68

/-- Where the bytes begin that a signature is made over. -/
def signableOffset : Nat := 100

/-- Where the type stands. -/
def typeOffset : Nat := 104

/-! ## Sizes of transactions without their lists, by shape -/

/-- A header, the owner's key, and 37 bytes for seven numbers. -/
def prepareDrive : Nat := headerSize + 69

/-- A header and the drive's key. -/
def joinToDrive : Nat := headerSize + 32

/-- A header, the drive's key, two hashes and two counts. -/
def driveFileSystem : Nat := headerSize + 100

/-- A header, the drive's key and a count. -/
def filesDeposit : Nat := headerSize + 34

/-- A header and the drive's key. -/
def endDrive : Nat := headerSize + 32

/-- A header and a count. -/
def driveFilesReward : Nat := headerSize + 2

/-- A header and the drive's key. -/
def startDriveVerification : Nat := headerSize + 32

/-- A header alone; the list is not counted. -/
def endDriveVerification : Nat := headerSize

/-- A header, the drive's key and a count. -/
def startFileDownload : Nat := headerSize + 34

/-- A header, the recipient's key, a token and a count. -/
def endFileDownload : Nat := headerSize + 66

/-- A header, and the size of the inner transactions. -/
def aggregate : Nat := headerSize + 4

/-! ## Sizes of the records in lists -/

/-- A hash with a size. -/
def sizedFile : Nat := 40

/-- A hash alone. -/
def file : Nat := 32

/-- A key with an amount. -/
def upload : Nat := 40

/-- A verification failure without its block hashes. -/
def failure : Nat := 36

/-- A key with a signature. -/
def cosignature : Nat := 96

end Layout

end DriveChain
