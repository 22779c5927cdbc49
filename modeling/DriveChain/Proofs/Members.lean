import DriveChain.Json.Decoder

/-!
# The members of written objects

Objects are written in the order of their names and read by looking names up.
The two do not depend on each other: as long as no name comes twice, sorting
only permutes the members, and looking a name up does not see the order.

Readers also go over values that they do not want, and stop at a fault in them.
A *plain* value has none: it is made of what texts can say, and has no member
with the reserved name. All that is written is plain, so the three ways of going
over a value let it pass.
-/

namespace DriveChain

namespace Sorted

variable {κ ν : Type} [DecidableEq κ]

theorem put_perm {before : κ → κ → Bool} {key : κ} {value : ν} {entries : List (κ × ν)}
    (h : key ∉ entries.map Prod.fst) :
    (put before key value entries).Perm ((key, value) :: entries) := by
  induction entries with
  | nil => exact List.Perm.refl _
  | cons entry rest ih =>
      obtain ⟨k, v⟩ := entry
      rw [List.map_cons, List.mem_cons, not_or] at h
      rw [put, if_neg h.1]
      split
      · exact List.Perm.refl _
      · exact ((ih h.2).cons (k, v)).trans (List.Perm.swap (key, value) (k, v) rest)

theorem foldl_put_perm {before : κ → κ → Bool} {entries sorted : List (κ × ν)}
    (h : ((sorted ++ entries).map Prod.fst).Nodup) :
    (entries.foldl (fun sorted entry => put before entry.1 entry.2 sorted) sorted).Perm
      (sorted ++ entries) := by
  induction entries generalizing sorted with
  | nil =>
      rw [List.append_nil]
      exact List.Perm.refl _
  | cons entry rest ih =>
      have hmiddle : (sorted ++ entry :: rest).Perm (entry :: sorted ++ rest) :=
        List.perm_middle
      have hnodup := (hmiddle.map Prod.fst).nodup_iff.1 h
      have hfresh : entry.1 ∉ sorted.map Prod.fst := by
        rw [List.cons_append, List.map_cons, List.nodup_cons, List.map_append,
          List.mem_append, not_or] at hnodup
        exact hnodup.1.1
      have hput : (put before entry.1 entry.2 sorted ++ rest).Perm (entry :: sorted ++ rest) :=
        (put_perm hfresh).append_right rest
      rw [List.foldl_cons]
      exact (ih ((hput.map Prod.fst).nodup_iff.2 hnodup)).trans (hput.trans hmiddle.symm)

/-- Entries whose keys differ are only put in another order. -/
theorem ofList_perm {before : κ → κ → Bool} {entries : List (κ × ν)}
    (h : (entries.map Prod.fst).Nodup) : (ofList before entries).Perm entries :=
  @foldl_put_perm κ ν _ before entries [] h

theorem mem_of_mem_put {before : κ → κ → Bool} {key : κ} {value : ν} {entries : List (κ × ν)}
    {entry : κ × ν} (h : entry ∈ put before key value entries) :
    entry = (key, value) ∨ entry ∈ entries := by
  induction entries with
  | nil => exact Or.inl (List.mem_singleton.1 h)
  | cons first rest ih =>
      obtain ⟨k, v⟩ := first
      rw [put] at h
      split at h
      · exact (List.mem_cons.1 h).imp_right (List.mem_cons_of_mem _)
      · split at h
        · exact List.mem_cons.1 h
        · obtain rfl | h := List.mem_cons.1 h
          · exact Or.inr List.mem_cons_self
          · exact (ih h).imp_right (List.mem_cons_of_mem _)

/-- No entry is made up, whether keys come once or again. -/
theorem mem_of_mem_ofList {before : κ → κ → Bool} {entries : List (κ × ν)} {entry : κ × ν}
    (h : entry ∈ ofList before entries) : entry ∈ entries := by
  have hfoldl : ∀ sorted : List (κ × ν),
      entry ∈ entries.foldl (fun sorted entry => put before entry.1 entry.2 sorted) sorted →
        entry ∈ sorted ∨ entry ∈ entries := by
    clear h
    induction entries with
    | nil => exact fun sorted h => Or.inl h
    | cons first rest ih =>
        intro sorted h
        obtain h | h := ih _ h
        · obtain rfl | h := mem_of_mem_put h
          · exact Or.inr List.mem_cons_self
          · exact Or.inl h
        · exact Or.inr (List.mem_cons_of_mem _ h)
  exact (hfoldl [] h).resolve_left List.not_mem_nil

end Sorted

namespace Json

/-! ## Looking names up -/

theorem lookup_eq_some {members : List (String × Json)}
    (h : (members.map Prod.fst).Nodup) {name : String} {value : Json} :
    members.lookup name = some value ↔ (name, value) ∈ members := by
  induction members with
  | nil => simp
  | cons member rest ih =>
      obtain ⟨other, w⟩ := member
      rw [List.map_cons, List.nodup_cons] at h
      rw [List.lookup_cons, List.mem_cons]
      by_cases heq : name = other
      · subst heq
        have hrest : (name, value) ∉ rest := fun hmem =>
          h.1 (List.mem_map.2 ⟨_, hmem, rfl⟩)
        simp [hrest, eq_comm]
      · simp [beq_false_of_ne heq, heq, ih h.2]

theorem mem_of_lookup {members : List (String × Json)} {name : String} {value : Json}
    (h : members.lookup name = some value) : (name, value) ∈ members := by
  obtain ⟨before, behind, rfl, -⟩ := List.lookup_eq_some_iff.1 h
  exact List.mem_append_right before List.mem_cons_self

theorem lookup_eq_none {members : List (String × Json)} {name : String}
    (h : name ∉ members.map Prod.fst) : members.lookup name = none := by
  refine List.lookup_eq_none_iff.2 fun member hmember => ?_
  rw [bne_iff_ne]
  intro heq
  exact h (List.mem_map.2 ⟨member, hmember, heq.symm⟩)

theorem lookup_perm {members members' : List (String × Json)}
    (hperm : members'.Perm members) (h : (members.map Prod.fst).Nodup) (name : String) :
    members'.lookup name = members.lookup name := by
  have h' : (members'.map Prod.fst).Nodup := (hperm.map Prod.fst).nodup_iff.2 h
  refine Option.ext fun value => ?_
  rw [lookup_eq_some h', lookup_eq_some h, hperm.mem_iff]

/-- Members of an object, as sorting leaves them. -/
abbrev sorted (members : List (String × Json)) : List (String × Json) :=
  Sorted.ofList (fun a b => decide (a < b)) members

/-- A member of an object is found under its name. -/
theorem get?_ofMembers {members : List (String × Json)}
    (h : (members.map Prod.fst).Nodup) {name : String} {value : Json}
    (hmem : (name, value) ∈ members) : (ofMembers members).get? name = some value := by
  show (sorted members).lookup name = some value
  rw [lookup_perm (Sorted.ofList_perm h) h]
  exact (lookup_eq_some h).2 hmem

/-! ## Plain values -/

/-- Values without a damaged place, and without a member under the reserved name. -/
inductive Plain : Json → Prop
  | null : Plain .null
  | bool (b : Bool) : Plain (.bool b)
  | number (n : Number) : Plain (.number n)
  | string (s : String) : Plain (.string s)
  | array {items : List Json} (hitems : ∀ item ∈ items, Plain item) : Plain (.array items)
  | object {members : List (String × Json)} (hnames : ∀ m ∈ members, m.1 ≠ nestedName)
      (hmembers : ∀ m ∈ members, Plain m.2) : Plain (.object members)

theorem passItems_ok {items : List Json} (h : ∀ item ∈ items, item.pass = .ok ()) :
    passItems items = .ok () := by
  induction items with
  | nil => rfl
  | cons item rest ih =>
      rw [List.forall_mem_cons] at h
      rw [passItems, h.1]
      exact ih h.2

theorem passMembers_ok {members : List (String × Json)}
    (h : ∀ m ∈ members, m.2.pass = .ok ()) : passMembers members = .ok () := by
  induction members with
  | nil => rfl
  | cons member rest ih =>
      rw [List.forall_mem_cons] at h
      rw [passMembers, h.1]
      exact ih h.2

theorem Plain.pass_ok {value : Json} (h : value.Plain) : value.pass = .ok () := by
  induction h with
  | null | bool | number | string => simp only [pass]
  | array _ ih =>
      rw [pass]
      exact passItems_ok ih
  | object _ _ ih =>
      rw [pass]
      exact passMembers_ok ih

theorem reviewItems_ok {items : List Json} (h : ∀ item ∈ items, item.review = .ok ()) :
    reviewItems items = .ok () := by
  induction items with
  | nil => rfl
  | cons item rest ih =>
      rw [List.forall_mem_cons] at h
      rw [reviewItems, h.1]
      exact ih h.2

theorem reviewMembers_ok {members : List (String × Json)}
    (h : ∀ m ∈ members, m.2.review = .ok ()) : reviewMembers members = .ok () := by
  induction members with
  | nil => rfl
  | cons member rest ih =>
      rw [List.forall_mem_cons] at h
      rw [reviewMembers, h.1]
      exact ih h.2

theorem Plain.review_ok {value : Json} (h : value.Plain) : value.review = .ok () := by
  induction h with
  | null | bool | number | string => simp only [review]
  | array _ ih =>
      rw [review]
      exact reviewItems_ok ih
  | @object members hnames _ ih =>
      cases members with
      | nil => rw [review]
      | cons member rest =>
          rw [List.forall_mem_cons] at hnames ih
          unfold review
          rw [if_neg hnames.1, ih.1]
          exact reviewMembers_ok ih.2

end Json

end DriveChain
