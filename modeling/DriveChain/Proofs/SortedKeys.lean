import DriveChain.Drive.Document
import Mathlib.Data.List.Induction

/-!
# Keys in order

Records keep what is listed under keys in the order of the keys, and each key once. Which
keys there are does not depend on how keys are ordered, nor does what stands under a key: it
is what the list has last. The order is needed for one thing only, that no key comes twice.
-/

namespace DriveChain

namespace Sorted

variable {κ ν : Type} [DecidableEq κ] {before : κ → κ → Bool} {key other : κ} {value : ν}

/-! ## What is kept -/

theorem mem_add {keys : List κ} : other ∈ add before key keys ↔ other = key ∨ other ∈ keys := by
  induction keys with
  | nil => simp [add]
  | cons k rest ih =>
      rw [add]
      split
      · next heq =>
          subst heq
          rw [List.mem_cons, ← or_assoc, or_self]
      · split
        · rw [List.mem_cons]
        · rw [List.mem_cons, List.mem_cons, ih, or_left_comm]

theorem members_concat (keys : List κ) :
    members before (keys ++ [key]) = add before key (members before keys) :=
  List.foldl_append

theorem ofList_concat (entries : List (κ × ν)) :
    ofList before (entries ++ [(key, value)]) = put before key value (ofList before entries) :=
  List.foldl_append

/-- The members of a list are the same in order. -/
theorem mem_members {keys : List κ} : other ∈ members before keys ↔ other ∈ keys := by
  induction keys using List.reverseRecOn with
  | nil => exact Iff.rfl
  | append_singleton keys key ih =>
      rw [members_concat, mem_add, ih, List.mem_append, List.mem_singleton, or_comm]

theorem lookup_cons {entries : List (κ × ν)} : ((key, value) :: entries).lookup other =
    if other = key then some value else entries.lookup other := by
  rw [List.lookup_cons]
  by_cases h : other = key
  · rw [if_pos h, beq_iff_eq.2 h]
  · rw [if_neg h, beq_false_of_ne h]

theorem lookup_put {entries : List (κ × ν)} : (put before key value entries).lookup other =
    if other = key then some value else entries.lookup other := by
  induction entries with
  | nil => rw [put, lookup_cons]
  | cons entry rest ih =>
      obtain ⟨k, v⟩ := entry
      rw [put]
      split
      · next heq =>
          subst heq
          rw [lookup_cons, lookup_cons]
          split <;> rfl
      · next hne =>
          split
          · rw [lookup_cons]
          · rw [lookup_cons, lookup_cons, ih]
            split
            · next heq => rw [if_neg fun h => hne (h.symm.trans heq)]
            · rfl

/-- Under each key stands what the list has last under it. -/
theorem lookup_ofList {entries : List (κ × ν)} :
    (ofList before entries).lookup key = entries.reverse.lookup key := by
  induction entries using List.reverseRecOn with
  | nil => rfl
  | append_singleton entries entry ih =>
      obtain ⟨k, v⟩ := entry
      rw [ofList_concat, lookup_put, ih, List.reverse_concat, lookup_cons]

/-! ## Keys alone -/

theorem map_fst_put (entries : List (κ × ν)) :
    (put before key value entries).map Prod.fst = add before key (entries.map Prod.fst) := by
  induction entries with
  | nil => rfl
  | cons entry rest ih =>
      obtain ⟨k, v⟩ := entry
      rw [put, List.map_cons, add]
      split
      · next heq => rw [List.map_cons, heq]
      · split
        · rfl
        · rw [List.map_cons, ih]

theorem map_fst_ofList (entries : List (κ × ν)) :
    (ofList before entries).map Prod.fst = members before (entries.map Prod.fst) := by
  induction entries using List.reverseRecOn with
  | nil => rfl
  | append_singleton entries entry ih =>
      obtain ⟨k, v⟩ := entry
      rw [ofList_concat, map_fst_put, ih, List.map_append, List.map_singleton, members_concat]

/-- Orders in which any two keys have their places. -/
structure Orders (before : κ → κ → Bool) : Prop where
  irrefl (a : κ) : before a a = false
  trans {a b c : κ} : before a b = true → before b c = true → before a c = true
  connected {a b : κ} : a ≠ b → before a b = false → before b a = true

theorem pairwise_add (h : Orders before) {keys : List κ}
    (hkeys : keys.Pairwise (before · ·)) : (add before key keys).Pairwise (before · ·) := by
  induction keys with
  | nil => exact List.pairwise_singleton _ _
  | cons k rest ih =>
      obtain ⟨hfirst, hrest⟩ := List.pairwise_cons.1 hkeys
      rw [add]
      split
      · exact hkeys
      · next hne =>
          split
          · next hbefore =>
              refine List.pairwise_cons.2 ⟨List.forall_mem_cons.2 ⟨hbefore, ?_⟩, hkeys⟩
              exact fun other hother => h.trans hbefore (hfirst other hother)
          · next hbefore =>
              refine List.pairwise_cons.2 ⟨fun other hother => ?_, ih hrest⟩
              obtain rfl | hother := mem_add.1 hother
              · exact h.connected hne (Bool.eq_false_iff.2 hbefore)
              · exact hfirst other hother

theorem nodup_members (h : Orders before) (keys : List κ) : (members before keys).Nodup := by
  have hpairwise : (members before keys).Pairwise (before · ·) := by
    induction keys using List.reverseRecOn with
    | nil => exact List.Pairwise.nil
    | append_singleton keys key ih =>
        rw [members_concat]
        exact pairwise_add h ih
  refine hpairwise.imp fun hbefore heq => ?_
  rw [heq, h.irrefl] at hbefore
  cases hbefore

theorem nodup_keys_ofList (h : Orders before) (entries : List (κ × ν)) :
    ((ofList before entries).map Prod.fst).Nodup := by
  rw [map_fst_ofList]
  exact nodup_members h _

/-! ## The orders of records -/

theorem orders_text : Orders fun a b : String => decide (a < b) where
  irrefl a := decide_eq_false (String.lt_irrefl a)
  trans hab hbc := decide_eq_true (String.lt_trans (of_decide_eq_true hab) (of_decide_eq_true hbc))
  connected hne hnot := decide_eq_true
    (Std.lt_of_le_of_ne (String.not_lt.1 (of_decide_eq_false hnot)) (Ne.symm hne))

theorem go_eq_lt {xs ys : List UInt8} : Octets.compare.go xs ys = .lt ↔ xs < ys := by
  induction xs generalizing ys with
  | nil => cases ys <;> simp [Octets.compare.go]
  | cons x xs ih =>
      cases ys with
      | nil => simp [Octets.compare.go]
      | cons y ys =>
          rw [Octets.compare.go, List.cons_lt_cons_iff, Ordering.then_eq_lt, ih,
            Std.compare_eq_lt, Std.compare_eq_iff_eq]

theorem before_iff {n : Nat} {a b : Octets n} : a.before b = true ↔ a.bytes < b.bytes := by
  rw [Octets.before, beq_iff_eq]
  exact go_eq_lt

theorem orders_octets (n : Nat) : Orders (Octets.before (n := n)) where
  irrefl a := by
    rw [Bool.eq_false_iff, ne_eq, before_iff]
    exact List.lt_irrefl _
  trans hab hbc := before_iff.2 (List.lt_trans (before_iff.1 hab) (before_iff.1 hbc))
  connected hne hnot := by
    rw [Bool.eq_false_iff, ne_eq, before_iff] at hnot
    exact before_iff.2 (Std.lt_of_le_of_ne hnot fun h => hne (Octets.ext h.symm))

end Sorted

end DriveChain
