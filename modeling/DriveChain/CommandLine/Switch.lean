/-!
# Switches and operands

The arguments of a command are switches and operands. A switch has a long name after two dashes and
perhaps a letter after one dash; its value follows it, or is attached with an equals sign, or, after
a letter, with nothing between. Letters may stand together behind one dash. Two dashes alone end the
switches. Every command also knows `--help` and `--version`, which end the reading where they stand.

A switch is given once. If it is not given, a variable of the environment may stand for it. A value
in an argument of its own is looked at when the next argument is taken. The name of a command hands
over to the command before that, so what is wrong with the value shows only after the command has
been read.
-/

namespace DriveChain

namespace CommandLine

/-- What ends the reading of arguments. -/
inductive Stop where
  | help
  | version
  | refused
deriving DecidableEq, Repr

/-- A switch by its long name, with its letter if it has one. -/
structure Switch where
  name : String
  letter : Option Char
  /-- Which values the switch takes; a switch without a value takes none. -/
  accepts : Option (String → Bool)
  /-- The variable whose value counts when the switch is not given. -/
  standIn : Option String

/-- What has been given to a command so far. -/
structure Given where
  switches : List (String × String)
  operands : List String
deriving DecidableEq, Repr

namespace Given

/-- Nothing has been given yet. -/
def nothing : Given := ⟨[], []⟩

/-- The value that a switch was given. -/
def value? (g : Given) (name : String) : Option String :=
  g.switches.lookup name

/-- Whether a switch was given. -/
def has (g : Given) (name : String) : Bool :=
  (g.value? name).isSome

end Given

/-- What a command may be given: its switches, and which operand, if it takes one. -/
structure Grammar where
  switches : List Switch
  operand : Option (String → Bool)

/-- An argument by its dashes. -/
inductive Word where
  | plain
  | stop
  | long (name : String) (attached : Option String)
  | letters (letters : List Char)
deriving DecidableEq, Repr

namespace Word

/-- A dash alone is a plain argument. -/
def ofArgument (argument : String) : Word :=
  match argument.toList with
  | ['-', '-'] => .stop
  | '-' :: '-' :: rest =>
    let name := String.ofList (rest.takeWhile (· ≠ '='))
    match rest.dropWhile (· ≠ '=') with
    | [] => .long name none
    | _ :: value => .long name (some (String.ofList value))
  | '-' :: c :: rest => .letters (c :: rest)
  | _ => .plain

end Word

/-- What an argument leads to: more has been given, or a switch waits for its value. -/
inductive Progress where
  | given (given : Given)
  | waiting (switch : Switch)

namespace Grammar

/-- Gives a value to a switch, which must not have one yet. -/
def give (switch : Switch) (value : String) (given : Given) : Except Stop Given :=
  if given.has switch.name then .error .refused
  else
    match switch.accepts with
    | some accepts =>
      if accepts value then .ok { given with switches := (switch.name, value) :: given.switches }
      else .error .refused
    | none => .ok { given with switches := (switch.name, value) :: given.switches }

/-- Gives the one operand, if the command takes it and has none yet. -/
def giveOperand (g : Grammar) (given : Given) (operand : String) : Except Stop Given :=
  match g.operand with
  | some accepts =>
    if given.operands.isEmpty && accepts operand then
      .ok { given with operands := [operand] }
    else .error .refused
  | none => .error .refused

/-- A switch by its long name, with what is attached to it. -/
def long (g : Grammar) (name : String) (attached : Option String) (given : Given) :
    Except Stop Progress :=
  match name, attached with
  | "help", none => .error .help
  | "version", none => .error .version
  | _, _ =>
    match g.switches.find? (·.name == name) with
    | none => .error .refused
    | some switch =>
      match switch.accepts, attached with
      | some _, none => .ok (.waiting switch)
      | some _, some value => (give switch value given).map .given
      | none, none => (give switch "" given).map .given
      | none, some _ => .error .refused

/-- Switches by their letters; behind the letter of one that takes a value stands this value. -/
def letters (g : Grammar) : List Char → Given → Except Stop Progress
  | [], given => .ok (.given given)
  | 'h' :: _, _ => .error .help
  | 'V' :: _, _ => .error .version
  | c :: rest, given =>
    match g.switches.find? (·.letter == some c) with
    | none => .error .refused
    | some switch =>
      match switch.accepts, rest with
      | some _, [] => .ok (.waiting switch)
      | some _, '=' :: value => (give switch (String.ofList value) given).map .given
      | some _, value => (give switch (String.ofList value) given).map .given
      | none, rest =>
        match give switch "" given with
        | .error stop => .error stop
        | .ok given => letters g rest given

/-- What an argument gives, or which switch it leaves waiting. -/
def take (g : Grammar) (given : Given) : Word → Except Stop Progress
  | .long name attached => g.long name attached given
  | .letters letters => g.letters letters given
  | .plain => .ok (.given given)
  | .stop => .ok (.given given)

/-- Gives a switch the value that it waits for, if there is such a switch. -/
def settle (due : Option (Switch × String)) (given : Given) : Except Stop Given :=
  match due with
  | none => .ok given
  | some (switch, value) => give switch value given

/-- Goes over arguments in order, up to the first one that names a command. The result is what has
been given, the switch and the value just before the command, and the arguments from it on. -/
def scan (g : Grammar) (isCommand : String → Bool) :
    Option (Switch × String) → Given → List String →
    Except Stop (Given × Option (Switch × String) × List String)
  | due, given, [] => .ok (given, due, [])
  | due, given, argument :: rest =>
    if Word.ofArgument argument = .plain ∧ isCommand argument then
      .ok (given, due, argument :: rest)
    else
      match settle due given with
      | .error stop => .error stop
      | .ok given =>
        match Word.ofArgument argument with
        | .plain =>
          match g.giveOperand given argument with
          | .error stop => .error stop
          | .ok given => scan g isCommand none given rest
        | .stop => (rest.foldlM g.giveOperand given).map fun given => (given, none, [])
        | word =>
          match g.take given word with
          | .error stop => .error stop
          | .ok (.given given) => scan g isCommand none given rest
          | .ok (.waiting switch) =>
            match rest with
            | [] => .error .refused
            | value :: rest =>
              if Word.ofArgument value = .plain then
                scan g isCommand (some (switch, value)) given rest
              else .error .refused

/-- Lets variables of the environment stand for switches that are not given. -/
def standIns (g : Grammar) (setting? : String → Option String) (given : Given) :
    Except Stop Given :=
  g.switches.foldlM
    (fun given switch =>
      if given.has switch.name then .ok given
      else
        match switch.standIn.bind setting? with
        | some value => give switch value given
        | none => .ok given)
    given

/-- What has been given once the last value is looked at, first without and then with what the
environment adds. -/
def complete (g : Grammar) (setting? : String → Option String) (due : Option (Switch × String))
    (given : Given) : Except Stop (Given × Given) := do
  let given ← settle due given
  return (given, ← g.standIns setting? given)

end Grammar

end CommandLine

end DriveChain
