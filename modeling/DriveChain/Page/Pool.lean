import DriveChain.Page

/-!
# The workers of a page

How the entries of a page are mapped side by side. A worker that is idle takes an entry that nobody
has taken, works on it for as long as it likes, and puts what comes of it into the place of that
entry. A schedule says which worker takes or is done with which entry, in the order in which that
happens. Nothing else restricts it, so a run is any schedule whose events can all happen where they
stand. It is over when all entries have been taken and no worker is busy; the page is then made from
the places, in their order.
-/

namespace DriveChain

namespace Page

/-- What the workers have done so far. -/
structure Pool (ε β : Type) where
  /-- The entries that have been taken, the last one first. -/
  taken : List Nat
  /-- The workers that are busy, each with its entry. -/
  busy : List (Nat × Nat)
  /-- What came of each entry, in the order of the entries. -/
  places : List (Option (Except ε β))

namespace Pool

variable {α β ε : Type}

/-- Nothing has been taken yet. -/
def idle (entries : List α) : Pool ε β :=
  ⟨[], [], entries.map fun _ => none⟩

/-- What a worker does. -/
inductive Event where
  | take (worker entry : Nat)
  | done (worker entry : Nat)
deriving DecidableEq, Repr

/-- Whether one of `size` workers can do this now. -/
def Allows (entries : List α) (size : Nat) (p : Pool ε β) : Event → Prop
  | .take worker entry =>
    worker < size ∧ (∀ other, (worker, other) ∉ p.busy) ∧ entry < entries.length ∧
      entry ∉ p.taken
  | .done worker entry => (worker, entry) ∈ p.busy ∧ entry < entries.length

/-- What becomes of the pool. -/
def after (f : α → Except ε β) (entries : List α) (p : Pool ε β) : Event → Pool ε β
  | .take worker entry =>
    { p with taken := entry :: p.taken, busy := (worker, entry) :: p.busy }
  | .done worker entry =>
    { p with
      busy := p.busy.erase (worker, entry)
      places := p.places.set entry (entries[entry]?.map f) }

/-- The schedule leads from one pool to the other. -/
inductive Follows (f : α → Except ε β) (entries : List α) (size : Nat) :
    Pool ε β → List Event → Pool ε β → Prop where
  | nil (p : Pool ε β) : Follows f entries size p [] p
  | snoc {p q : Pool ε β} {schedule : List Event} {event : Event}
      (follows : Follows f entries size p schedule q) (allows : q.Allows entries size event) :
      Follows f entries size p (schedule ++ [event]) (q.after f entries event)

/-- Whether all entries have been taken and all workers are done. -/
def IsOver (p : Pool ε β) : Prop :=
  (∀ entry < p.places.length, entry ∈ p.taken) ∧ p.busy = []

/-- What is made of the places: all results, or the first failure. -/
def result (p : Pool ε β) : Except (PageError ε) (List β) :=
  collect 0 (p.places.filterMap id)

end Pool

end Page

end DriveChain
