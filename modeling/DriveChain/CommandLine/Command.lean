import DriveChain.CommandLine.Switch
import DriveChain.Network

/-!
# Commands

What the command line can be asked for. The network, and the format of the log, may be given before
the command or behind it; what stands behind it counts.
-/

namespace DriveChain

namespace CommandLine

/-- What the command line can be asked to do. -/
inductive Command where
  | addressOfKey (key : String)
  | addressOfText (text : String)
  | mosaic (nonce : UInt32) (owner : String)
  | namespaceLeaf (name : String)
  | namespacePath (name : String)
  | wellKnown
  | decode (input : String)
  | drives (file : String) (workers : Option Nat)
deriving DecidableEq, Repr

/-- A command on a network. -/
structure Invocation where
  network : Network
  command : Command
deriving DecidableEq, Repr

/-! ## Values -/

/-- The number that decimal digits stand for; there has to be at least one. -/
def natural? (digits : List Char) : Option Nat :=
  if digits.isEmpty || !digits.all Char.isDigit then none
  else some (digits.foldl (fun n c => 10 * n + (c.toNat - 48)) 0)

/-- The digits behind a plus sign, if there is one. -/
def unsigned (text : List Char) : List Char :=
  match text with
  | '+' :: digits => digits
  | digits => digits

/-- A number of workers. -/
def workers? (text : String) : Option Nat :=
  (natural? (unsigned text.toList)).filter (· < UInt64.size)

/-- A nonce; zero may have either sign. -/
def nonce? (text : String) : Option UInt32 :=
  let value :=
    match text.toList with
    | '-' :: digits => (natural? digits).filter (· = 0)
    | text => natural? (unsigned text)
  (value.filter (· < UInt32.size)).map UInt32.ofNat

/-- The network of a name. -/
def network? (text : String) : Option Network :=
  (Network.ofName text).toOption

/-! ## Grammars -/

/-- Switches that may stand before the command and behind it. -/
def sharedSwitches : List Switch :=
  [⟨"network", some 'n', some fun text => (network? text).isSome, some "SIRIUS_NETWORK"⟩,
   ⟨"log-format", none, some fun text => text == "pretty" || text == "json",
    some "SIRIUS_LOG_FORMAT"⟩]

/-- What may stand before the command: the shared switches and no operand. -/
def leadingGrammar : Grammar := ⟨sharedSwitches, none⟩

/-- What the command of a name may be given, if there is one. -/
def grammar? (name : String) : Option Grammar :=
  let anyText : String → Bool := fun _ => true
  match name with
  | "address" => some ⟨⟨"parse", none, some anyText, none⟩ :: sharedSwitches, some anyText⟩
  | "mosaic-id" =>
    some ⟨⟨"nonce", none, some fun text => (nonce? text).isSome, none⟩ ::
      ⟨"owner", none, some anyText, none⟩ :: sharedSwitches, none⟩
  | "namespace-id" =>
    some ⟨⟨"path", none, none, none⟩ :: ⟨"well-known", none, none, none⟩ :: sharedSwitches,
      some anyText⟩
  | "decode" => some ⟨sharedSwitches, some anyText⟩
  | "decode-drives" =>
    some ⟨⟨"workers", some 'w', some fun text => (workers? text).isSome,
      some "SIRIUS_PAGE_WORKERS"⟩ :: sharedSwitches, some fun file => !file.isEmpty⟩
  | _ => none

/-- The command of a name, made from what it was given. -/
def command? (name : String) (given : Given) : Option Command :=
  match name, given.operands with
  | "address", [] => (given.value? "parse").map .addressOfText
  | "address", key :: _ => if given.has "parse" then none else some (.addressOfKey key)
  | "mosaic-id", _ =>
    (given.value? "owner").map (.mosaic (((given.value? "nonce").bind nonce?).getD 0))
  | "namespace-id", [] =>
    if given.has "well-known" && !given.has "path" then some .wellKnown else none
  | "namespace-id", name :: _ =>
    if given.has "well-known" then none
    else if given.has "path" then some (.namespacePath name)
    else some (.namespaceLeaf name)
  | "decode", input :: _ => some (.decode input)
  | "decode-drives", file :: _ => some (.drives file ((given.value? "workers").bind workers?))
  | _, _ => none

/-- The name under which the program speaks of itself. -/
def programName : String := "sirius-cli"

/-- The version that the program announces. -/
def programVersion : String := "0.1.0"

/-- The reading of arguments ends without a command: with a request for help or for the version of
the program or one of its commands, or because the arguments are refused. -/
inductive Ending where
  | help
  | version (program : String)
  | refused
deriving DecidableEq, Repr

/-- How a stop ends the reading, in the given program or command. -/
def Stop.ending (program : String) : Stop → Ending
  | .help => .help
  | .version => .version program
  | .refused => .refused

/-- What asking for help on a command by its name leads to. -/
def helpEnding (names : List String) : Ending :=
  match names with
  | [] => .help
  | [name] => if name = "help" ∨ (grammar? name).isSome then .help else .refused
  | _ => .refused

/-- Reads what stands before the command, then the command, then what stands behind it. What has
been given before the command is judged last. -/
def Invocation.ofArguments (setting? : String → Option String) (arguments : List String) :
    Except Ending Invocation :=
  let isCommand (name : String) : Bool := name == "help" || (grammar? name).isSome
  match leadingGrammar.scan isCommand none .nothing arguments with
  | .error stop => .error (stop.ending programName)
  | .ok (_, _, []) => .error .refused
  | .ok (before, dueBefore, name :: rest) =>
    match grammar? name with
    | none => .error (helpEnding rest)
    | some grammar =>
      match grammar.scan (fun _ => false) none .nothing rest with
      | .error stop => .error (stop.ending (programName ++ "-" ++ name))
      | .ok (behind, dueBehind, _) =>
        match grammar.complete setting? dueBehind behind,
            leadingGrammar.complete setting? dueBefore before with
        | .ok (behind, completed), .ok (before, _) =>
          let network := ((behind.value? "network").or (before.value? "network")).or
            (completed.value? "network")
          match command? name completed with
          | some command => .ok ⟨(network.bind network?).getD .mijinTest, command⟩
          | none => .error .refused
        | _, _ => .error .refused

end CommandLine

end DriveChain
