import DriveChain.Asset.Mosaic
import DriveChain.Asset.Namespace
import DriveChain.Drive

/-!
# Failures of commands

A command that fails says what it could not do, and below this the causes, from the nearest to the
last. Several causes are numbered.
-/

namespace DriveChain

/-- The messages of an error and of what lies below it. -/
def TransactionError.causes (e : TransactionError) : List String :=
  match e with
  | .json cause => [e.message, cause.message]
  | e => [e.message]

/-- The messages of an error and of what lies below it. -/
def DriveError.causes : DriveError → List String
  | .field cause => cause.causes
  | .json cause => [(DriveError.json cause).message, cause.message]
  | .entry index cause => (DriveError.entry index cause).message :: causes cause
  | .unknownState code => [(DriveError.unknownState code).message]

namespace CommandLine

/-- Why something cannot be read. -/
inductive ReadFault where
  | notFound
  | notText
deriving DecidableEq, Repr

/-- What is said about the fault. -/
def ReadFault.message : ReadFault → String
  | .notFound => "No such file or directory (os error 2)"
  | .notText => "stream did not contain valid UTF-8"

/-- What a command could not do, with the cause. -/
inductive Failure where
  | notKey (text : String) (cause : HexError)
  | notAddress (text : String) (cause : AddressError)
  | notOwner (cause : OwnerError)
  | notName (name : String) (cause : NamespaceError)
  | notHex (cause : HexError)
  | notTransaction (cause : TransactionError)
  | notDocument (cause : TransactionError)
  | notPage (file : String) (cause : DriveError)
  | unprintable (cause : TransactionError)
  | unreadable (source : String) (fault : ReadFault)

namespace Failure

/-- What the command could not do. -/
def message : Failure → String
  | .notKey text _ => "cannot derive an address from '" ++ text ++ "'"
  | .notAddress text _ => "'" ++ text ++ "' is not a valid address"
  | .notOwner _ => "cannot derive mosaic id"
  | .notName name _ => "'" ++ name ++ "' is not a valid namespace name"
  | .notHex _ => "input is neither a JSON envelope nor hex"
  | .notTransaction _ => "failed to decode transaction bytes"
  | .notDocument _ => "failed to map transaction json"
  | .notPage file _ => "failed to map drives page " ++ file
  | .unprintable cause => cause.message
  | .unreadable source _ => "failed to read " ++ source

/-- The messages of the causes, from the nearest to the last. -/
def causes : Failure → List String
  | .notKey _ cause => [Account.keyMessage cause]
  | .notAddress _ cause => [cause.message]
  | .notOwner cause => [cause.message]
  | .notName _ cause => [cause.message]
  | .notHex cause => [cause.message]
  | .notTransaction cause => cause.causes
  | .notDocument cause => cause.causes
  | .notPage _ cause => cause.causes
  | .unprintable cause => cause.causes.tail
  | .unreadable _ fault => [fault.message]

/-- A text whose lines begin with the given blanks, all but the first. -/
def hanging (indent : String) (text : String) : String :=
  ("\n" ++ indent).intercalate (text.splitOn "\n")

/-- A number with blanks before it, in five columns. -/
def numbered (n : Nat) : String :=
  let digits := toString n
  String.ofList (List.replicate (5 - digits.length) ' ') ++ digits

/-- Causes that are numbered, from a number on. -/
def numberedCauses : (number : Nat) → List String → String
  | _, [] => ""
  | number, cause :: rest =>
    "\n" ++ numbered number ++ ": " ++ hanging "       " cause ++ numberedCauses (number + 1) rest

/-- What a failure prints. -/
def report (f : Failure) : String :=
  "Error: " ++ f.message ++
    (match f.causes with
    | [] => ""
    | [cause] => "\n\nCaused by:\n    " ++ hanging "    " cause
    | causes => "\n\nCaused by:" ++ numberedCauses 0 causes) ++ "\n"

end Failure

end CommandLine

end DriveChain
