/-!
# Mapping the entries of a page

All entries of a page are mapped, each on its own, by a few workers; what comes out keeps the order
of the entries. If any entry fails the whole page does, with the first failure in that order.
-/

namespace DriveChain

/-- The entry of a page that failed. -/
structure PageError (ε : Type) where
  index : Nat
  cause : ε
deriving DecidableEq, Repr

namespace Page

variable {α β ε : Type}

/-- The largest number of workers that ever run. -/
def maxWorkers : Nat := 16

/-- The number of workers that run when some number of them is asked for. -/
def workers (wanted : Nat) : Nat :=
  max 1 (min wanted maxWorkers)

/-- What became of all entries, from an index on: all results, or the first failure. -/
def collect : (index : Nat) → List (Except ε β) → Except (PageError ε) (List β)
  | _, [] => .ok []
  | index, .error cause :: _ => .error ⟨index, cause⟩
  | index, .ok b :: rest =>
    match collect (index + 1) rest with
    | .error e => .error e
    | .ok bs => .ok (b :: bs)

/-- Maps the entries of a page. -/
def map (f : α → Except ε β) (entries : List α) : Except (PageError ε) (List β) :=
  collect 0 (entries.map f)

/-- The message about the entry that failed. -/
def message (e : PageError ε) (cause : ε → String) : String :=
  "page entry " ++ toString e.index ++ " failed: " ++ cause e.cause

end Page

end DriveChain
