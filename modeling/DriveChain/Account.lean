import DriveChain.Address

/-!
# Accounts

An account as others see it: a public key and the address that stands for it. Accounts made from a
key carry the address of that key on a network. An account read from a document carries the address
that the document gives.
-/

namespace DriveChain

/-- An account: a public key and an address that stands for it. -/
structure Account where
  key : Key
  address : Address
deriving DecidableEq

namespace Account

/-- The account of a key on a network, with the address that the key has there. -/
def ofKey (key : Key) (network : Network) : Account :=
  ⟨key, .ofKey key network⟩

/-- The network that the address of an account is on. -/
def network (a : Account) : Network :=
  a.address.network

/-- Reads the key from hexadecimal text. -/
def ofHex (key : String) (network : Network) : Except HexError Account :=
  match Octets.ofHex 32 key with
  | .error e => .error e
  | .ok key => .ok (ofKey key network)

/-- The message about a text that is no key. -/
def keyMessage (cause : HexError) : String :=
  "invalid public key: " ++ cause.message

/-- How an account is shown in a listing of values. -/
def describe (a : Account) : String :=
  "PublicAccount \x7b public_key: \"" ++ a.key.hex ++ "\", address: \"" ++ a.address.text ++
    "\" \x7d"

end Account

end DriveChain
