import DriveChain.Asset.Identifier

/-!
# Mosaics

A mosaic is an asset that an owner has issued. Its identifier comes from the owner's key and a
nonce, and its top bit is clear.
-/

namespace DriveChain

/-- The identifier of a mosaic. -/
structure MosaicId where
  id : UInt64
deriving DecidableEq, Repr

/-- Why a text is not the key of a mosaic's owner. -/
inductive OwnerError where
  | length (found : Nat)
  | notHex (cause : HexError)
deriving DecidableEq, Repr

namespace OwnerError

/-- What is said about the error. -/
def message : OwnerError → String
  | .length found => "invalid owner public key: expected 64 hex chars, got " ++ toString found
  | .notHex cause => "invalid owner public key: " ++ cause.message

end OwnerError

namespace MosaicId

/-- A number whose top bit is clear. -/
def ofNumber (id : UInt64) : Except IdentifierError MosaicId :=
  if 0x8000000000000000 ≤ id.toNat then .error (.namespaceBit id) else .ok ⟨id⟩

/-- Reads a mosaic from its sixteen digits. -/
def ofHex (text : String) : Except IdentifierError MosaicId :=
  match Identifier.ofHex text with
  | .error e => .error e
  | .ok id => ofNumber id

/-- The identifier of the asset that an owner issues under a nonce. -/
def derive (nonce : UInt32) (owner : Key) : MosaicId :=
  let (low, high) := Identifier.words (sha3 (bytes32 nonce ++ owner.bytes))
  ⟨Words.join low (high &&& 0x7FFFFFFF)⟩

/-- As `derive`, for an owner given as a text. -/
def ofOwner (nonce : UInt32) (owner : String) : Except OwnerError MosaicId :=
  let size := owner.utf8ByteSize
  if size ≠ 64 then .error (.length size)
  else
    match Octets.ofHex 32 owner with
    | .error e => .error (.notHex e)
    | .ok key => .ok (derive nonce key)

/-- The sixteen digits of a mosaic's identifier. -/
def hex (m : MosaicId) : String :=
  Identifier.hex m.id

/-- How a mosaic is shown in a listing of values. -/
def describe (m : MosaicId) : String :=
  "MosaicId(" ++ m.hex ++ ")"

end MosaicId

end DriveChain
