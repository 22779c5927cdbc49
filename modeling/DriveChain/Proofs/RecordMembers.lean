import DriveChain.Proofs.Fields
import Mathlib.Data.List.Forall2

/-!
# Records by their members

A record may be an object or an array of its fields. The items of an array stand for the
fields in their order, and a field that has no item any more is absent. So an array says what
an object with the items under the names of the fields says, and whoever asks what a record
says need not ask which of the two it is.
-/

namespace DriveChain

section Results

variable {ε α β : Type}

theorem mapM_ok_iff {read : α → Except ε β} {as : List α} {bs : List β} :
    as.mapM read = .ok bs ↔ List.Forall₂ (fun a b => read a = .ok b) as bs := by
  induction as generalizing bs with
  | nil => rw [List.mapM_nil, except_pure_ok, List.forall₂_nil_left_iff, eq_comm]
  | cons a rest ih =>
      simp only [List.mapM_cons, except_bind_ok, except_pure_ok, List.forall₂_cons_left_iff, ih]
      refine ⟨?_, ?_⟩
      · rintro ⟨b, hb, bs, hbs, rfl⟩
        exact ⟨b, bs, hb, hbs, rfl⟩
      · rintro ⟨b, bs, hb, hbs, rfl⟩
        exact ⟨b, hb, bs, hbs, rfl⟩

theorem exists_pure_ok {a : α} : ∃ b, (pure a : Except ε α) = .ok b :=
  ⟨a, rfl⟩

theorem exists_bind_ok {x : Except ε α} {next : α → Except ε β} :
    (∃ b, x >>= next = .ok b) ↔ ∃ a, x = .ok a ∧ ∃ b, next a = .ok b := by
  simp only [except_bind_ok]
  rw [exists_comm]
  simp only [exists_and_left]

theorem exists_mapM_ok {read : α → Except ε β} {as : List α} :
    (∃ bs, as.mapM read = .ok bs) ↔ ∀ a ∈ as, ∃ b, read a = .ok b := by
  induction as with
  | nil => simp [except_pure_ok]
  | cons a rest ih =>
      simp only [List.mapM_cons, exists_bind_ok, exists_pure_ok, and_true, exists_and_right, ih,
        List.forall_mem_cons]

end Results

namespace Json

variable {α β : Type}

/-- The members of an object, or those that the items of an array stand for. -/
def parts (names : List String) : Json → List (String × Json)
  | .object members => members
  | .array items => names.zip items
  | _ => []

theorem lookup_zip {names : List String} (h : names.Nodup) (items : List Json) (i : Nat)
    (hi : i < names.length) : (names.zip items).lookup names[i] = items[i]? := by
  induction names generalizing items i with
  | nil => cases hi
  | cons name rest ih =>
      obtain ⟨hname, hrest⟩ := List.nodup_cons.1 h
      cases items with
      | nil => rfl
      | cons item items =>
          rw [List.zip_cons_cons, List.lookup_cons]
          cases i with
          | zero => simp
          | succ i =>
              have hi : i < rest.length := Nat.lt_of_succ_lt_succ hi
              have hne : rest[i] ≠ name := fun heq => hname (heq ▸ List.getElem_mem _)
              rw [List.getElem_cons_succ, beq_false_of_ne hne, List.getElem?_cons_succ]
              exact ih hrest items i hi

/-- Fields that are made of items as they are of the members that the items stand for. -/
class Fields.Placed (fields : Fields α) : Prop where
  rest {source : Source} {short : Nat → Error} {position taken : Nat} {items rest : List Json}
    {a : α} : fields.ofItems source short position items = .ok (a, taken, rest) →
      rest = items.drop fields.names.length
  ofMembers {source : Source} {short : Nat → Error} {position taken : Nat}
    {items rest : List Json} {a : α} {members : List (String × Json)} :
    fields.ofItems source short position items = .ok (a, taken, rest) →
    (∀ i (h : i < fields.names.length), members.lookup fields.names[i] = items[i]?) →
      fields.ofMembers source members = .ok a

namespace Fields

theorem nextItem_none {items : List Json} (h : nextItem items = .ok none) : items = [] := by
  unfold nextItem at h
  split at h <;> cases h
  rfl

theorem ofItems_field {name : String} {d : Decoder α} {absent : Option α} {source : Source}
    {short : Nat → Error} {position taken : Nat} {items rest : List Json} {a : α}
    (h : (field name d absent).ofItems source short position items = .ok (a, taken, rest)) :
    (∃ item, items = item :: rest ∧ d source item = .ok a) ∨
      items = [] ∧ rest = [] ∧ absent = some a := by
  simp only [field] at h
  split at h
  · cases h
  · next item rest' hnext =>
      split at h <;> cases h
      next hitem => exact .inl ⟨item, nextItem_ok hnext, hitem⟩
  · next hnext =>
      split at h <;> cases h
      exact .inr ⟨nextItem_none hnext, rfl, rfl⟩

instance placed_field (name : String) (d : Decoder α) (absent : Option α) :
    (field name d absent).Placed := by
  refine ⟨fun hitems => ?_, ?_⟩
  · obtain ⟨item, rfl, _⟩ | ⟨rfl, rfl, _⟩ := ofItems_field hitems
    · rfl
    · rfl
  · intro source short position taken items rest a members hitems hmembers
    have hlookup : members.lookup name = items[0]? := hmembers 0 Nat.one_pos
    simp only [field, hlookup]
    obtain ⟨item, rfl, hitem⟩ | ⟨rfl, rfl, rfl⟩ := ofItems_field hitems
    · exact hitem
    · rfl

instance placed_required (name : String) (d : Decoder α) : (required name d).Placed :=
  placed_field name d none

instance placed_optional (name : String) (d : Decoder α) (absent : α) :
    (optional name d absent).Placed :=
  placed_field name d (some absent)

instance placed_map {fields : Fields α} [h : fields.Placed] (f : α → β) :
    (f <$> fields).Placed := by
  refine ⟨fun hitems => ?_, fun hitems hmembers => ?_⟩
  · obtain ⟨a, ha, _⟩ := ofItems_map_ok hitems
    exact h.rest ha
  · obtain ⟨a, ha, rfl⟩ := ofItems_map_ok hitems
    exact ofMembers_map_ok.2 ⟨a, h.ofMembers ha hmembers, rfl⟩

instance placed_seq {fs : Fields (α → β)} {as : Fields α} [hf : fs.Placed] [ha : as.Placed] :
    (fs <*> as).Placed := by
  have hnames : (fs <*> as).names = fs.names ++ as.names := rfl
  refine ⟨fun hitems => ?_, fun hitems hmembers => ?_⟩
  · obtain ⟨f, a, middle, behind, hfs, has, _⟩ := ofItems_seq_ok hitems
    rw [ha.rest has, hf.rest hfs, List.drop_drop, hnames, List.length_append, Nat.add_comm]
  · obtain ⟨f, a, middle, behind, hfs, has, rfl⟩ := ofItems_seq_ok hitems
    refine ofMembers_seq_ok.2 ⟨f, a, hf.ofMembers hfs fun i hi => ?_,
      ha.ofMembers has fun i hi => ?_, rfl⟩
    · have hname := hmembers i (by rw [hnames, List.length_append]; omega)
      simpa only [hnames, List.getElem_append_left hi] using hname
    · have hname := hmembers (fs.names.length + i) (by rw [hnames, List.length_append]; omega)
      rw [hf.rest hfs, List.getElem?_drop, ← hname]
      simp only [hnames, List.getElem_append_right (Nat.le_add_right _ i), Nat.add_sub_cancel_left]

/-- What a record is made of, whichever way it is given. -/
theorem ofMembers_parts {fields : Fields α} [hplaced : fields.Placed] {label : String}
    {source : Source} {value : Json} {a : α} (names : List String)
    (h : fields.record label source value = .ok a) (hnames : fields.names = names)
    (hnodup : names.Nodup) : fields.ofMembers source (value.parts names) = .ok a := by
  subst hnames
  unfold record at h
  split at h
  · exact ofMembers_of_ofObject h
  · next items =>
      split at h
      · cases h
      · next b taken rest hitems =>
          split at h <;> cases h
          exact hplaced.ofMembers hitems (lookup_zip hnodup items)
  · cases h

theorem lookup_of_optional {name : String} {d : Decoder α} {absent a : α} {source : Source}
    {members : List (String × Json)}
    (h : (optional name d absent).ofMembers source members = .ok a) :
    (∃ value, members.lookup name = some value ∧ d source value = .ok a) ∨
      members.lookup name = none ∧ a = absent := by
  simp only [optional, field] at h
  split at h
  · next value hlookup => exact .inl ⟨value, hlookup, h⟩
  · next hlookup =>
      cases h
      exact .inr ⟨hlookup, rfl⟩

end Fields

/-- What stands under a name is read as a value. -/
def Says (members : List (String × Json)) (name : String) (d : Decoder α) (a : α) : Prop :=
  ∃ value, members.lookup name = some value ∧ d .text value = .ok a

/-- The items of the list under a name. There are none if nothing stands there. -/
def listed (members : List (String × Json)) (name : String) : List Json :=
  match members.lookup name with
  | some (.array items) => items
  | _ => []

theorem listed_of_optional {name : String} {d : Decoder α} {source : Source}
    {members : List (String × Json)} {as : List α}
    (h : (Fields.optional name d.list []).ofMembers source members = .ok as) :
    List.Forall₂ (fun item a => d source item = .ok a) (listed members name) as := by
  unfold listed
  obtain ⟨value, hlookup, hlist⟩ | ⟨hlookup, rfl⟩ := Fields.lookup_of_optional h
  · simp only [hlookup]
    unfold Decoder.list at hlist
    split at hlist
    · exact mapM_ok_iff.1 hlist
    · cases hlist
  · simp only [hlookup]
    exact .nil

/-- What is read of a text is read of its value. -/
theorem read_of_decodeText {d : Decoder α} {text : List UInt8} {a : α}
    (h : decodeText d text = .ok a) : d .text (Document.ofBytes text).root = .ok a := by
  unfold decodeText at h
  simp only [] at h
  split at h
  · cases h
  · next hread =>
      split at h <;> cases h
      exact hread

end Json

end DriveChain
