import DriveChain.Octets.Hex

/-!
# Networks

A network has a byte, which leads every address on it and is the top byte of every packed version,
a letter, with which its addresses begin, and a name.
-/

namespace DriveChain

/-- The networks of the chain. -/
inductive Network where
  | mijin
  | mijinTest
  | publicNet
  | publicTest
  | privateNet
  | privateTest
deriving DecidableEq, Repr

/-- Why something does not identify a network. -/
inductive NetworkError where
  | unknownByte (byte : UInt8)
  | unknownLetter (letter : Char)
  | unknownName (name : String)
deriving DecidableEq, Repr

namespace NetworkError

/-- What is said about the error. -/
def message : NetworkError → String
  | .unknownByte byte => "unknown network type byte 0x" ++ Hex.number 2 byte.toNat
  | .unknownLetter letter => "unknown network prefix '" ++ String.singleton letter ++ "'"
  | .unknownName name => "unknown network name '" ++ name ++ "'"

end NetworkError

namespace Network

/-- All networks. -/
def all : List Network :=
  [.mijin, .mijinTest, .publicNet, .publicTest, .privateNet, .privateTest]

/-- The byte that stands for a network in addresses and versions. -/
def byte : Network → UInt8
  | .mijin => 0x60
  | .mijinTest => 0x90
  | .publicNet => 0xB8
  | .publicTest => 0xA8
  | .privateNet => 0xC8
  | .privateTest => 0xB0

/-- The first character of every address on the network. -/
def letter : Network → Char
  | .mijin => 'M'
  | .mijinTest => 'S'
  | .publicNet => 'X'
  | .publicTest => 'V'
  | .privateNet => 'Z'
  | .privateTest => 'W'

/-- The name under which a network is given and shown. -/
def name : Network → String
  | .mijin => "mijin"
  | .mijinTest => "mijin-test"
  | .publicNet => "public"
  | .publicTest => "public-test"
  | .privateNet => "private"
  | .privateTest => "private-test"

/-- The network with a byte. -/
def ofByte (byte : UInt8) : Except NetworkError Network :=
  match all.find? (·.byte == byte) with
  | some network => .ok network
  | none => .error (.unknownByte byte)

/-- Reads a letter in either case. -/
def ofLetter (letter : Char) : Except NetworkError Network :=
  match all.find? (·.letter == letter.toUpper) with
  | some network => .ok network
  | none => .error (.unknownLetter letter.toUpper)

/-- Reads a name in any case, with underscores for dashes if need be. -/
def ofName (name : String) : Except NetworkError Network :=
  let plain := name.map fun c => if c = '_' then '-' else c.toLower
  match all.find? (·.name == plain) with
  | some network => .ok network
  | none => .error (.unknownName name)

/-- The network that a packed version number names in its top byte. -/
def ofPacked (packed : UInt32) : Except NetworkError Network :=
  ofByte (UInt8.ofNat (packed.toNat / 0x1000000))

end Network

end DriveChain
