import DriveChain.CommandLine.Blank
import DriveChain.CommandLine.Command
import DriveChain.CommandLine.Failure
import DriveChain.Drive.Document
import DriveChain.Json.Printer
import DriveChain.Transaction.Bytes

/-!
# The command line

Each command takes a text, an identifier or a file and prints one JSON document about it. All of
them work without a node.
-/

namespace DriveChain

namespace CommandLine

/-- What a run can reach besides its arguments. -/
structure Surroundings (m : Type → Type) where
  /-- The value of a variable of the environment. -/
  setting? : String → Option String
  /-- Everything on the standard input. -/
  stdin : m (List UInt8)
  /-- What a file holds, if there is one of this name. -/
  file? : String → m (Option (List UInt8))

/-- What comes of a run. -/
inductive Outcome where
  | printed (text : String)
  | helped
  | refused
  | failed (failure : Failure)

namespace Outcome

/-- The exit code of a run. -/
def code : Outcome → UInt32
  | .printed _ => 0
  | .helped => 0
  | .refused => 2
  | .failed _ => 1

end Outcome

/-! ## Documents that are printed -/

/-- What is printed about an address: its text in both forms, its network and its raw form. -/
def addressDocument (a : Address) : Json :=
  Json.ofMembers
    [("address", .string a.text), ("pretty", .string a.pretty),
     ("network", .string a.network.name), ("hex", .string a.hex)]

/-- What is printed about a mosaic: the nonce it was made with, its digits and its pair of
words. -/
def mosaicDocument (nonce : UInt32) (m : MosaicId) : Json :=
  Json.ofMembers
    [("nonce", .natural nonce.toNat), ("id", .string m.hex), ("dto", .ofWord64 m.id)]

/-- A namespace with the text that it belongs to, under the given name. -/
def namespaceDocument (label text : String) (n : NamespaceId) : Json :=
  Json.ofMembers [(label, .string text), ("id", .string n.hex), ("dto", .ofWord64 n.id)]

/-- What is printed about the chain's own namespaces. -/
def wellKnownDocument : Json :=
  .array (NamespaceId.wellKnown.map fun name =>
    Json.ofMembers
      [("name", .string name), ("id", .string (NamespaceId.ofKnownName name).hex)])

/-- What is printed about a transaction: its type, its size and its document. -/
def transactionDocument (tx : Transaction) : Except TransactionError Json := do
  let envelope ← tx.toJson
  return Json.ofMembers
    [("entityType", .string tx.type.name), ("size", .natural tx.size), ("envelope", envelope)]

/-- What is printed about a drive: who owns it, its state and root, and how much it holds. -/
def driveDocument (d : Drive) : Json :=
  Json.ofMembers
    [("drive", .ofOctets d.account.key), ("owner", .string d.owner.address.text),
     ("state", .string d.state.name), ("rootHash", .ofOctets d.root), ("size", .ofWord64 d.size),
     ("occupiedSpace", .ofWord64 d.occupied), ("replicators", .natural d.replicators.length),
     ("files", .natural d.files.length)]

/-- What is printed about a page: its drives, and where it stands among all pages. -/
def pageDocument (page : DrivePage) : Json :=
  Json.ofMembers
    [("drives", .array (page.drives.map driveDocument)),
     ("pagination", Json.ofMembers page.pagination.members)]

/-! ## Commands -/

/-- The document of a transaction that is given as the text of a document or in hexadecimal. -/
def decode (input : String) : Except Failure Json := do
  let text := Blank.trim input
  let tx ←
    if text.toList.head? = some '{' then
      match Transaction.ofText (utf8 text) with
      | .error e => .error (.notDocument e)
      | .ok tx => .ok tx
    else
      match Hex.decode text with
      | .error e => .error (.notHex e)
      | .ok bytes =>
        match Transaction.ofBytes bytes with
        | .error e => .error (.notTransaction e)
        | .ok tx => .ok tx
  match transactionDocument tx with
  | .error e => .error (.unprintable e)
  | .ok document => .ok document

/-- The text that bytes are in UTF-8, if they are one. -/
def text? (bytes : List UInt8) : Option String :=
  String.fromUTF8? ⟨bytes.toArray⟩

/-- The text that a source holds. -/
def textOf (source : String) (bytes : List UInt8) : Except Failure String :=
  match text? bytes with
  | some text => .ok text
  | none => .error (.unreadable source .notText)

section Monadic

variable {m : Type → Type} [Monad m]

/-- The text to decode: a dash stands for the standard input, the name of a file for what the file
holds, and everything else for itself. -/
def readInput (s : Surroundings m) (input : String) : m (Except Failure String) := do
  if input = "-" then return textOf "stdin" (← s.stdin)
  else
    match ← s.file? input with
    | some bytes => return textOf input bytes
    | none => return .ok input

/-- The document that answers a command. The number of workers has no part in it. -/
def answer (s : Surroundings m) (invocation : Invocation) : m (Except Failure Json) := do
  match invocation.command with
  | .addressOfKey key =>
    match Account.ofHex key invocation.network with
    | .error e => return .error (.notKey key e)
    | .ok account => return .ok (addressDocument account.address)
  | .addressOfText text =>
    match Address.ofText text with
    | .error e => return .error (.notAddress text e)
    | .ok address => return .ok (addressDocument address)
  | .mosaic nonce owner =>
    match MosaicId.ofOwner nonce owner with
    | .error e => return .error (.notOwner e)
    | .ok mosaic => return .ok (mosaicDocument nonce mosaic)
  | .namespaceLeaf name =>
    match NamespaceId.ofName name with
    | .error e => return .error (.notName name e)
    | .ok leaf => return .ok (namespaceDocument "name" name leaf)
  | .namespacePath name =>
    match NamespaceId.path name with
    | .error e => return .error (.notName name e)
    | .ok path =>
      return .ok (.array (((NamespaceId.parts name).zip path).map fun level =>
        namespaceDocument "part" level.1 level.2))
  | .wellKnown => return .ok wellKnownDocument
  | .decode input =>
    match ← readInput s input with
    | .error failure => return .error failure
    | .ok text => return decode text
  | .drives file _ =>
    match ← s.file? file with
    | none => return .error (.unreadable file .notFound)
    | some bytes =>
      match DrivePage.ofText invocation.network bytes with
      | .error e => return .error (.notPage file e)
      | .ok page => return .ok (pageDocument page)

/-- Runs the program with the given arguments. -/
def run (s : Surroundings m) (arguments : List String) : m Outcome := do
  match Invocation.ofArguments s.setting? arguments with
  | .error .help => return .helped
  | .error (.version program) => return .printed (program ++ " " ++ programVersion ++ "\n")
  | .error .refused => return .refused
  | .ok invocation =>
    match ← answer s invocation with
    | .error failure => return .failed failure
    | .ok document => return .printed (document.pretty ++ "\n")

end Monadic

end CommandLine

end DriveChain
