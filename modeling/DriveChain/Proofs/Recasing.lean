import DriveChain.Proofs.HexText
import DriveChain.Transaction.Document
import Mathlib.Data.List.Forall2

/-!
# Documents in which only the case of digits differs

Keys, hashes and signatures are texts of a document, and so are names and ids, whose case
matters. Which texts are which depends on where they stand, and a *schema* says it: by the
names of members, and where a record is given as an array, by place. Two values are *recased*
under a schema if they are the same but for the case of the texts that the schema calls
hexadecimal.

The proofs are about two runs of one reader. Its results *agree* if both are errors, or both
are values that stand in a relation. Readers are made of few combinators, and each of them
hands agreement on, so that of a reader of documents nothing is left to show but that its
fields follow the schema.
-/

namespace DriveChain

/-! ## Two results -/

/-- Two results that are both errors, or both values that stand in a relation. -/
inductive Agree {ε α β : Type} (R : α → β → Prop) : Except ε α → Except ε β → Prop
  | ok {a : α} {b : β} : R a b → Agree R (.ok a) (.ok b)
  | error (e e' : ε) : Agree R (.error e) (.error e')

section Agree

variable {ε α β γ δ : Type} {R : α → β → Prop} {S : γ → δ → Prop}

theorem agree_iff {x : Except ε α} {y : Except ε β} : Agree R x y ↔
    (∃ a b, x = .ok a ∧ y = .ok b ∧ R a b) ∨ ∃ e e', x = .error e ∧ y = .error e' := by
  refine ⟨fun h => ?_, fun h => ?_⟩
  · cases h with
    | ok h => exact .inl ⟨_, _, rfl, rfl, h⟩
    | error e e' => exact .inr ⟨e, e', rfl, rfl⟩
  · rcases h with ⟨a, b, rfl, rfl, h⟩ | ⟨e, e', rfl, rfl⟩
    · exact .ok h
    · exact .error e e'

theorem agree_self (x : Except ε α) : Agree Eq x x := by
  cases x with
  | error e => exact .error e e
  | ok a => exact .ok rfl

theorem agree_eq_iff {x y : Except ε α} (h : Agree Eq x y) (a : α) : x = .ok a ↔ y = .ok a := by
  cases h with
  | error e e' => simp
  | ok h => rw [h]

theorem agree_of_iff {x y : Except ε α} (h : ∀ a, x = .ok a ↔ y = .ok a) : Agree Eq x y := by
  cases x with
  | ok a =>
      rw [(h a).1 rfl]
      exact .ok rfl
  | error e =>
      cases y with
      | error e' => exact .error e e'
      | ok b => cases (h b).2 rfl

theorem agree_mono {R' : α → β → Prop} {x : Except ε α} {y : Except ε β} (h : Agree R x y)
    (hR : ∀ a b, R a b → R' a b) : Agree R' x y := by
  cases h with
  | ok h => exact .ok (hR _ _ h)
  | error e e' => exact .error e e'

theorem agree_bind {x : Except ε α} {y : Except ε β} {f : α → Except ε γ} {g : β → Except ε δ}
    (h : Agree R x y) (hnext : ∀ a b, R a b → Agree S (f a) (g b)) :
    Agree S (x >>= f) (y >>= g) := by
  cases h with
  | ok h => exact hnext _ _ h
  | error e e' => exact .error e e'

theorem agree_mapM {f : α → Except ε γ} {g : β → Except ε δ} {as : List α} {bs : List β}
    (h : List.Forall₂ R as bs) (hf : ∀ a ∈ as, ∀ b, R a b → Agree S (f a) (g b)) :
    Agree (List.Forall₂ S) (as.mapM f) (bs.mapM g) := by
  induction h with
  | nil => exact .ok .nil
  | cons hab _ ih =>
      rw [List.forall_mem_cons] at hf
      rw [List.mapM_cons, List.mapM_cons]
      refine agree_bind (hf.1 _ hab) fun c d hcd => agree_bind (ih hf.2) fun cs ds hcds => ?_
      exact .ok (.cons hcd hcds)

/-- A list of results that are the same, if any are. -/
theorem agree_mapM_eq {f : α → Except ε γ} {g : β → Except ε γ} {as : List α} {bs : List β}
    (h : List.Forall₂ R as bs) (hf : ∀ a ∈ as, ∀ b, R a b → Agree Eq (f a) (g b)) :
    Agree Eq (as.mapM f) (bs.mapM g) :=
  agree_mono (agree_mapM h hf) fun _ _ heq => List.forall₂_eq_eq_eq ▸ heq

end Agree

/-- Two texts that are the same in upper case. -/
def SameDigits (text text' : String) : Prop :=
  text.toUpper = text'.toUpper

theorem sameDigits_iff {text text' : String} :
    SameDigits text text' ↔ text.toList.map Char.toUpper = text'.toList.map Char.toUpper := by
  rw [SameDigits, ← String.toList_inj, String.toUpper, String.toUpper, String.toList_map,
    String.toList_map]

instance (text text' : String) : Decidable (SameDigits text text') :=
  decidable_of_iff _ sameDigits_iff.symm

theorem Octets.ofHex_agree {n : Nat} {text text' : String} (h : SameDigits text text') :
    Agree Eq (ofHex n text) (ofHex n text') :=
  agree_of_iff fun _ => ofHex_congr h

namespace Json

/-! ## Schemas -/

/-- Where keys, hashes and signatures stand in a value. -/
inductive Schema where
  /-- The value is none and holds none. -/
  | other
  /-- The value is one. -/
  | hex
  | list (item : Schema)
  /-- The values of the fields of a record, in the order of the fields. -/
  | record (fields : List (String × Schema))
  /-- The document of a transaction, which may hold others like it. -/
  | envelope

namespace Schema

/-- A file in a transaction, with its size or without. -/
def file : Schema :=
  .record [("fileHash", .hex), ("fileSize", .other)]

/-- Where the digits stand in an upload. -/
def upload : Schema :=
  .record [("participant", .hex), ("uploaded", .other)]

/-- Where the digits stand in a verification failure. -/
def failure : Schema :=
  .record [("replicator", .hex), ("blockHashes", .list .hex)]

/-- Where the digits stand in a cosignature. -/
def cosignature : Schema :=
  .record [("signer", .hex), ("signature", .hex)]

/-- The fields of headers and of payloads, of whatever shape. -/
def transaction : Schema :=
  .record
    [("signature", .hex), ("signer", .hex), ("owner", .hex), ("driveKey", .hex),
     ("rootHash", .hex), ("xorRootHash", .hex), ("fileRecipient", .hex),
     ("operationToken", .hex), ("addActions", .list file), ("removeActions", .list file),
     ("files", .list file), ("uploadInfos", .list upload),
     ("verificationFailures", .list failure), ("cosignatures", .list cosignature),
     ("transactions", .list .envelope)]

/-- What a node reports: ids are no hashes. -/
def report : Schema :=
  .record
    [("height", .other), ("index", .other), ("id", .other), ("hash", .hex),
     ("merkleComponentHash", .hex), ("aggregateHash", .hex), ("aggregateId", .other)]

/-- The fields of a record or an envelope, with what is in them. -/
def fields : Schema → List (String × Schema)
  | .record fields => fields
  | .envelope => [("transaction", transaction), ("meta", report)]
  | _ => []

/-- What a member of an object is. What stands under the reserved name is a document of its
own and is not looked into. -/
def member (schema : Schema) (name : String) : Schema :=
  if name = nestedName then .other else (schema.fields.lookup name).getD .other

/-- What an item of an array is: one of a list, or the field of a record whose turn it is. -/
def item : Schema → Nat → Schema
  | .list item, _ => item
  | schema, place =>
    (schema.fields[place]?.map fun field => schema.member field.1).getD .other

theorem member_other (name : String) : other.member name = .other := by
  unfold member fields
  split <;> rfl

theorem member_nestedName (schema : Schema) : schema.member nestedName = .other :=
  if_pos rfl

theorem item_record {parts : List (String × Schema)} {names : List String}
    (hnames : names <+: parts.map Prod.fst) (i : Nat) (hi : i < names.length) :
    (record parts).item i = (record parts).member names[i] := by
  have hlength := hnames.length_le
  rw [List.length_map] at hlength
  have hlt : i < parts.length := by omega
  have hname : names[i] = parts[i].1 := by
    rw [hnames.getElem hi, List.getElem_map]
  have hfield : (record parts).fields[i]? = some parts[i] := List.getElem?_eq_getElem hlt
  show ((record parts).fields[i]?.map fun field => (record parts).member field.1).getD .other = _
  rw [hname, hfield, Option.map_some, Option.getD_some]

end Schema

/-! ## Values -/

mutual

/-- Values that are the same but for the case of the digits where a schema has them. -/
inductive Recased : Schema → Json → Json → Prop
  | same (schema : Schema) (value : Json) : Recased schema value value
  | hex {text text' : String} : SameDigits text text' →
      Recased .hex (.string text) (.string text')
  | array {schema : Schema} {items items' : List Json} :
      RecasedItems schema.item items items' → Recased schema (.array items) (.array items')
  | object {schema : Schema} {members members' : List (String × Json)} :
      RecasedMembers schema.member members members' →
        Recased schema (.object members) (.object members')

/-- Items that are recased each under the schema for its place. -/
inductive RecasedItems : (Nat → Schema) → List Json → List Json → Prop
  | nil {schemas : Nat → Schema} : RecasedItems schemas [] []
  | cons {schemas : Nat → Schema} {item item' : Json} {rest rest' : List Json} :
      Recased (schemas 0) item item' →
        RecasedItems (fun place => schemas (place + 1)) rest rest' →
          RecasedItems schemas (item :: rest) (item' :: rest')

/-- Members of the same names in the same order, each recased under the schema for its
name. -/
inductive RecasedMembers :
    (String → Schema) → List (String × Json) → List (String × Json) → Prop
  | nil {schemas : String → Schema} : RecasedMembers schemas [] []
  | cons {schemas : String → Schema} {name : String} {value value' : Json}
      {rest rest' : List (String × Json)} :
      Recased (schemas name) value value' → RecasedMembers schemas rest rest' →
        RecasedMembers schemas ((name, value) :: rest) ((name, value') :: rest')

end

theorem RecasedItems.refl (schemas : Nat → Schema) (items : List Json) :
    RecasedItems schemas items items := by
  induction items generalizing schemas with
  | nil => exact .nil
  | cons item rest ih => exact .cons (.same _ item) (ih _)

theorem RecasedMembers.refl (schemas : String → Schema) (members : List (String × Json)) :
    RecasedMembers schemas members members := by
  induction members with
  | nil => exact .nil
  | cons member rest ih => exact .cons (.same _ member.2) ih

theorem Recased.array_left {schema : Schema} {items : List Json} {value : Json}
    (h : Recased schema (.array items) value) :
    ∃ items', value = .array items' ∧ RecasedItems schema.item items items' := by
  cases h with
  | same => exact ⟨items, rfl, .refl _ items⟩
  | array h => exact ⟨_, rfl, h⟩

theorem Recased.object_left {schema : Schema} {members : List (String × Json)} {value : Json}
    (h : Recased schema (.object members) value) :
    ∃ members', value = .object members' ∧ RecasedMembers schema.member members members' := by
  cases h with
  | same => exact ⟨members, rfl, .refl _ members⟩
  | object h => exact ⟨_, rfl, h⟩

theorem RecasedItems.forall₂ {schemas : Nat → Schema} {schema : Schema}
    {items items' : List Json} (h : RecasedItems schemas items items')
    (hlist : ∀ place, schemas place = schema) :
    List.Forall₂ (Recased schema) items items' := by
  induction items generalizing schemas items' with
  | nil =>
      cases h
      exact .nil
  | cons item rest ih =>
      cases h with
      | cons hitem hrest => exact .cons (hlist 0 ▸ hitem) (ih hrest fun place => hlist (place + 1))

mutual

/-- Where there are no digits, nothing differs. -/
theorem Recased.eq_of_other {value value' : Json} (h : Recased .other value value') :
    value = value' := by
  cases h with
  | same => rfl
  | array h => rw [h.eq_of_other fun _ => rfl]
  | object h => rw [h.eq_of_other Schema.member_other]

theorem RecasedItems.eq_of_other {schemas : Nat → Schema} {items items' : List Json}
    (h : RecasedItems schemas items items') (hother : ∀ place, schemas place = .other) :
    items = items' := by
  cases h with
  | nil => rfl
  | cons hitem hrest =>
      rw [hother 0] at hitem
      rw [hitem.eq_of_other, hrest.eq_of_other fun place => hother (place + 1)]

theorem RecasedMembers.eq_of_other {schemas : String → Schema}
    {members members' : List (String × Json)} (h : RecasedMembers schemas members members')
    (hother : ∀ name, schemas name = .other) : members = members' := by
  cases h with
  | nil => rfl
  | cons hvalue hrest =>
      rw [hother] at hvalue
      rw [hvalue.eq_of_other, hrest.eq_of_other hother]

end

theorem RecasedMembers.lookup {schemas : String → Schema}
    {members members' : List (String × Json)} (h : RecasedMembers schemas members members')
    (name : String) :
    Option.Rel (Recased (schemas name)) (members.lookup name) (members'.lookup name) := by
  induction members generalizing members' with
  | nil =>
      cases h
      exact .none
  | cons member rest ih =>
      cases h with
      | @cons _ other value value' _ rest' hvalue hrest =>
          rw [List.lookup_cons, List.lookup_cons]
          by_cases heq : name = other
          · subst heq
            simp only [beq_self_eq_true]
            exact .some hvalue
          · simp only [beq_false_of_ne heq]
            exact ih hrest

theorem Recased.get? {schema : Schema} {value value' : Json} (h : Recased schema value value')
    (name : String) :
    Option.Rel (Recased (schema.member name)) (value.get? name) (value'.get? name) := by
  cases h with
  | same =>
      cases value with
      | object members => exact (RecasedMembers.refl _ members).lookup name
      | _ => exact .none
  | object h => exact h.lookup name
  | hex | array => exact .none

/-! ## Passing over values -/

mutual

theorem Recased.pass_eq {schema : Schema} {value value' : Json}
    (h : Recased schema value value') : value.pass = value'.pass := by
  cases h with
  | same => rfl
  | hex => simp only [pass]
  | array h => rw [pass, pass, h.pass_eq]
  | object h => rw [pass, pass, h.pass_eq]

theorem RecasedItems.pass_eq {schemas : Nat → Schema} {items items' : List Json}
    (h : RecasedItems schemas items items') : passItems items = passItems items' := by
  cases h with
  | nil => rfl
  | cons hitem hrest => rw [passItems, passItems, hitem.pass_eq, hrest.pass_eq]

theorem RecasedMembers.pass_eq {schemas : String → Schema}
    {members members' : List (String × Json)} (h : RecasedMembers schemas members members') :
    passMembers members = passMembers members' := by
  cases h with
  | nil => rfl
  | cons hvalue hrest => rw [passMembers, passMembers, hvalue.pass_eq, hrest.pass_eq]

end

theorem RecasedMembers.length_eq {schemas : String → Schema}
    {members members' : List (String × Json)} (h : RecasedMembers schemas members members') :
    members.length = members'.length := by
  induction members generalizing members' with
  | nil =>
      cases h
      rfl
  | cons member rest ih =>
      cases h with
      | cons _ hrest => rw [List.length_cons, List.length_cons, ih hrest]

theorem RecasedMembers.isEmpty_eq {schemas : String → Schema}
    {members members' : List (String × Json)} (h : RecasedMembers schemas members members') :
    members.isEmpty = members'.isEmpty := by
  cases h <;> rfl

mutual

theorem Recased.review_eq {schema : Schema} {value value' : Json}
    (h : Recased schema value value') : value.review = value'.review := by
  cases h with
  | same => rfl
  | hex => simp only [review]
  | array h => rw [review, review, h.review_eq]
  | object h => exact h.review_eq.2 schema.member_nestedName

theorem RecasedItems.review_eq {schemas : Nat → Schema} {items items' : List Json}
    (h : RecasedItems schemas items items') : reviewItems items = reviewItems items' := by
  cases h with
  | nil => rfl
  | cons hitem hrest => rw [reviewItems, reviewItems, hitem.review_eq, hrest.review_eq]

theorem RecasedMembers.review_eq {schemas : String → Schema}
    {members members' : List (String × Json)} (h : RecasedMembers schemas members members') :
    reviewMembers members = reviewMembers members' ∧
      (schemas nestedName = .other → (object members).review = (object members').review) := by
  cases h with
  | nil => exact ⟨rfl, fun _ => rfl⟩
  | @cons _ name value value' rest rest' hvalue hrest =>
      have hfirst := hvalue.review_eq
      have hbehind := hrest.review_eq.1
      refine ⟨by rw [reviewMembers, reviewMembers, hfirst, hbehind], fun hother => ?_⟩
      unfold review
      by_cases hname : name = nestedName
      · rw [hname, hother] at hvalue
        rw [if_pos hname, if_pos hname, hvalue.eq_of_other, hrest.isEmpty_eq, hrest.length_eq]
      · rw [if_neg hname, if_neg hname, hfirst, hbehind]

end

end Json

end DriveChain
