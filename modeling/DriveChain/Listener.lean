import DriveChain.Transaction.Document

/-!
# Listening for unconfirmed transactions

A node tells a client of every transaction that concerns an address and is in no block yet. Callbacks
are registered for addresses. Each message goes to all callbacks of its address, in order; a callback
that is done with listening is taken off the register. What goes wrong is reported and never stops
the listening.
-/

namespace DriveChain

/-- What is reported while listening. -/
inductive ListenerError where
  | mapping (cause : TransactionError)
  | removal (address : Address) (reason : String)

namespace ListenerError

/-- What is said about the report. -/
def message : ListenerError → String
  | .mapping cause => "unconfirmed added message: " ++ cause.message
  | .removal address reason => "removing handler for " ++ address.text ++ ": " ++ reason

end ListenerError

/-- The callbacks that are registered for addresses, in the order of their registration. -/
structure Registry (κ : Type) where
  entries : List (Address × κ)

namespace Registry

variable {κ : Type} [DecidableEq κ]

/-- The callbacks of an address. -/
def callbacks (r : Registry κ) (address : Address) : List κ :=
  (r.entries.filter (·.1 = address)).map (·.2)

/-- Registers a callback for an address, behind all that are registered. -/
def register (r : Registry κ) (address : Address) (callback : κ) : Registry κ :=
  ⟨r.entries ++ [(address, callback)]⟩

/-- Takes a callback off an address, however often it is registered there. -/
def remove (r : Registry κ) (address : Address) (callback : κ) : Registry κ :=
  ⟨r.entries.filter fun entry => entry ≠ (address, callback)⟩

end Registry

/-- What callbacks answer, and whether the register lets go of them. Both may depend on a state that
callbacks change. -/
structure Host (κ σ : Type) where
  /-- Whether the callback is done with listening, and the state after the call. -/
  call : κ → Transaction → σ → Bool × σ
  /-- Why the callback cannot be taken off the address, if it cannot. -/
  refuses : Address → κ → σ → Option String

/-- Everything that changes while listening. -/
structure Listener (κ σ : Type) where
  registry : Registry κ
  state : σ
  reports : List ListenerError

namespace Listener

variable {κ σ : Type} [DecidableEq κ]

/-- Adds a report behind those that were made. -/
def report (l : Listener κ σ) (e : ListenerError) : Listener κ σ :=
  { l with reports := l.reports ++ [e] }

/-- Tells one callback of a transaction. -/
def notify (host : Host κ σ) (address : Address) (tx : Transaction) (l : Listener κ σ)
    (callback : κ) : Listener κ σ :=
  let (done, state) := host.call callback tx l.state
  let l := { l with state }
  if done then
    match host.refuses address callback state with
    | some reason => l.report (.removal address reason)
    | none => { l with registry := l.registry.remove address callback }
  else l

/-- Handles one message for an address. The answer says whether to keep listening on the address,
which only ends when its last callback is done. -/
def handle (host : Host κ σ) (l : Listener κ σ) (address : Address) (message : List UInt8) :
    Bool × Listener κ σ :=
  match Transaction.ofText message with
  | .error e => (true, l.report (.mapping e))
  | .ok tx =>
    let callbacks := l.registry.callbacks address
    if callbacks.isEmpty then (true, l)
    else
      let l := callbacks.foldl (notify host address tx) l
      (!(l.registry.callbacks address).isEmpty, l)

end Listener

end DriveChain
