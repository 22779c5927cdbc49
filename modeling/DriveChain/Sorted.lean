/-!
# Sorted lists

Records keep their keyed parts in the order of the keys. A key that comes again takes over from the
earlier entry; a member that comes again is kept once.
-/

namespace DriveChain

namespace Sorted

variable {κ ν : Type} [DecidableEq κ]

/-- Puts a value under a key. -/
def put (before : κ → κ → Bool) (key : κ) (value : ν) : List (κ × ν) → List (κ × ν)
  | [] => [(key, value)]
  | (k, v) :: rest =>
    if key = k then (key, value) :: rest
    else if before key k then (key, value) :: (k, v) :: rest
    else (k, v) :: put before key value rest

/-- Puts values under their keys, one after the other. -/
def ofList (before : κ → κ → Bool) (entries : List (κ × ν)) : List (κ × ν) :=
  entries.foldl (fun sorted entry => put before entry.1 entry.2 sorted) []

/-- Adds a member. -/
def add (before : κ → κ → Bool) (key : κ) : List κ → List κ
  | [] => [key]
  | k :: rest =>
    if key = k then k :: rest
    else if before key k then key :: k :: rest
    else k :: add before key rest

/-- The members of a list, in order and each of them once. -/
def members (before : κ → κ → Bool) (keys : List κ) : List κ :=
  keys.foldl (fun sorted key => add before key sorted) []

end Sorted

end DriveChain
