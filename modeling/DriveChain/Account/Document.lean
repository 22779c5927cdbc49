import DriveChain.Asset.Mosaic
import DriveChain.Asset.Namespace
import DriveChain.Drive.Document

/-!
# The JSON forms of identifiers

Addresses are texts, accounts are records, asset and namespace identifiers are pairs of words, and
networks, types and drive states are their codes.
-/

namespace DriveChain

open Json (Decoder Fields)

namespace Address

/-- In a document an address is its text, in any spelling. -/
def decoder : Decoder Address :=
  Decoder.text.check fun text =>
    match ofText text with
    | .error e => .error e.message
    | .ok address => .ok address

end Address

namespace Account

/-- The address is taken from the document, whatever the key is. -/
def decoder : Decoder Account :=
  Fields.record "an account" <|
    Account.mk <$> Fields.required "publicKey" (Octets.decoder 32)
      <*> Fields.required "address" Address.decoder

/-- The document of an account: its key in hexadecimal, and the text of its address. -/
def json (a : Account) : Json :=
  .object [("publicKey", .ofOctets a.key), ("address", .string a.address.text)]

end Account

namespace MosaicId

/-- In a document a mosaic is its number as a pair of words, which has to leave the top bit
clear. -/
def decoder : Decoder MosaicId :=
  Decoder.pair.check fun id =>
    match ofNumber id with
    | .error e => .error e.message
    | .ok mosaic => .ok mosaic

end MosaicId

namespace NamespaceId

/-- In a document a namespace is its number as a pair of words; every number is one. -/
def decoder : Decoder NamespaceId :=
  Decoder.pair.map NamespaceId.mk

end NamespaceId

namespace Network

/-- In a document a network is its byte. -/
def decoder : Decoder Network :=
  Decoder.word8.check fun byte =>
    match ofByte byte with
    | .error e => .error e.message
    | .ok network => .ok network

end Network

namespace TransactionType

/-- In a document a transaction type is its code. -/
def decoder : Decoder TransactionType :=
  Decoder.word16.check fun code =>
    match ofCode? code with
    | some type => .ok type
    | none => .error (unknownMessage code)

end TransactionType

namespace DriveState

/-- In a document the state of a drive is its code. -/
def decoder : Decoder DriveState :=
  Decoder.word8.check fun code =>
    match ofCode? code with
    | some state => .ok state
    | none => .error (unknownMessage code)

end DriveState

end DriveChain
