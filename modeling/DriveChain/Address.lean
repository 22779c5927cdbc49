import DriveChain.Digest
import DriveChain.Network
import DriveChain.Octets.Base32
import DriveChain.Octets.Hex

/-!
# Addresses

An address names an account on one network: it is the network together with a 20-byte digest of the
account's key. Its raw form is the network's byte, the digest and a checksum of both; its text is
the raw form in base 32. Since the checksum follows from the rest it is not stored, and every value
of the type has a valid raw form and text.
-/

namespace DriveChain

/-- The address of an account on a network. -/
structure Address where
  network : Network
  digest : Octets 20
deriving DecidableEq

/-- Why something is not the raw form or the text of an address. -/
inductive AddressError where
  | textLength (found : Nat)
  | notBase32
  | notHex (cause : HexError)
  | rawLength (found : Nat)
  | checksum
  | network (cause : NetworkError)
deriving DecidableEq, Repr

namespace AddressError

/-- What is said about the error. -/
def message : AddressError → String
  | .textLength found => "invalid address: expected 40 characters, got " ++ toString found
  | .notBase32 => "invalid address: not valid base32"
  | .notHex cause => "invalid address: " ++ cause.message
  | .rawLength found => "invalid address: expected 25 raw bytes, got " ++ toString found
  | .checksum => "invalid address: checksum mismatch"
  | .network cause => cause.message

end AddressError

namespace Address

/-- The address that a key has on a network: its digest is taken of the key by both hash
functions. -/
def ofKey (key : Key) (network : Network) : Address :=
  ⟨network, ripemd160 (sha3 key.bytes).bytes⟩

/-- What the checksum is taken of. -/
def versioned (a : Address) : List UInt8 :=
  a.network.byte :: a.digest.bytes

/-- The raw form: the network's byte, the digest, and the checksum of both. -/
def raw (a : Address) : List UInt8 :=
  a.versioned ++ (checksum a.versioned).bytes

/-- The text of an address: its raw form in base 32. -/
def text (a : Address) : String :=
  String.ofList (Base32.encode a.raw)

/-- The raw form in hexadecimal. -/
def hex (a : Address) : String :=
  Hex.encode a.raw

/-- Puts a dash before every sixth character from the given distance on. -/
def dashed : (distance : Nat) → List Char → List Char
  | _, [] => []
  | 0, c :: rest => '-' :: c :: dashed 5 rest
  | distance + 1, c :: rest => c :: dashed distance rest

/-- The text in groups of six characters, with dashes between them. -/
def pretty (a : Address) : String :=
  String.ofList (dashed 6 a.text.toList)

/-- Reads a raw form: its length is judged first, then its checksum, then its network. -/
def ofRaw (bytes : List UInt8) : Except AddressError Address :=
  if h : bytes.length = 25 then
    if (checksum (bytes.take 21)).bytes = bytes.drop 21 then
      match Network.ofByte (bytes.headD 0) with
      | .error e => .error (.network e)
      | .ok network => .ok ⟨network, (bytes.drop 1).take 20, by simp [h]⟩
    else .error .checksum
  else .error (.rawLength bytes.length)

/-- The spelling that a text is judged by: without dashes, and with letters in upper case. -/
def canonical (text : String) : String :=
  String.ofList ((text.toList.filter (· ≠ '-')).map Char.toUpper)

/-- Reads a text. Its length is counted in bytes. -/
def ofText (text : String) : Except AddressError Address :=
  let plain := canonical text
  if plain.utf8ByteSize ≠ 40 then .error (.textLength plain.utf8ByteSize)
  else
    match Base32.decode? plain.toList with
    | none => .error .notBase32
    | some bytes => ofRaw bytes

/-- Reads a raw form that is written in hexadecimal. -/
def ofHex (text : String) : Except AddressError Address :=
  match Hex.decode text with
  | .error e => .error (.notHex e)
  | .ok bytes => ofRaw bytes

/-- How an address is shown in a listing of values. -/
def describe (a : Address) : String :=
  "Address(" ++ a.text ++ ", " ++ a.network.name ++ ")"

end Address

end DriveChain
