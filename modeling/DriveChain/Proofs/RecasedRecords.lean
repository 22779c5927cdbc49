import DriveChain.Proofs.Recasing

/-!
# Records of recased values

A decoder *follows* a schema if it makes results that agree of values that are recased under
the schema. Decoders of whole values are looked at one by one here. Of a record it is enough
that each of its fields follows what the schema has under the name of the field: then all
three ways of reading the record do, from the members of an object, from the items of an
array, and beside another record in one object.
-/

namespace DriveChain

namespace Json

variable {α β : Type}

/-- Results that agree are made of values that are recased. -/
def Decoder.Follows (d : Decoder α) (schema : Schema) (R : α → α → Prop) : Prop :=
  ∀ source value value', Recased schema value value' → Agree R (d source value) (d source value')

namespace Decoder

variable {schema : Schema} {d : Decoder α} {R : α → α → Prop}

/-- Where no digits are, values do not differ. -/
theorem follows_other (d : Decoder α) : d.Follows .other Eq := by
  intro source value value' h
  rw [h.eq_of_other]
  exact agree_self _

theorem text_follows : text.Follows .hex SameDigits := by
  intro source value value' h
  cases h with
  | same =>
      cases value with
      | string text => exact .ok rfl
      | _ => exact .error _ _
  | hex h => exact .ok h
  | array | object => exact .error _ _

theorem check_follows {f : α → Except String β} {S : β → β → Prop} (h : d.Follows schema R)
    (hf : ∀ a b, R a b → Agree S (f a) (f b)) : (d.check f).Follows schema S := by
  intro source value value' hvalue
  unfold check
  rcases agree_iff.1 (h source value value' hvalue) with ⟨a, b, ha, hb, hab⟩ | ⟨e, e', he, he'⟩
  · rcases agree_iff.1 (hf a b hab) with ⟨c, c', hc, hc', hS⟩ | ⟨e, e', he, he'⟩
    · simp only [ha, hb, hc, hc']
      exact .ok hS
    · simp only [ha, hb, he, he']
      exact .error _ _
  · simp only [he, he']
    exact .error _ _

theorem map_follows {f : α → β} {S : β → β → Prop} (h : d.Follows schema R)
    (hf : ∀ a b, R a b → S (f a) (f b)) : (d.map f).Follows schema S := by
  intro source value value' hvalue
  unfold map
  rcases agree_iff.1 (h source value value' hvalue) with ⟨a, b, ha, hb, hab⟩ | ⟨e, e', he, he'⟩
  · simp only [ha, hb]
    exact .ok (hf a b hab)
  · simp only [he, he']
    exact .error _ _

theorem octets_follows (n : Nat) : (Octets.decoder n).Follows .hex Eq := by
  refine check_follows text_follows fun text text' h => ?_
  rcases agree_iff.1 (@Octets.ofHex_agree n text text' h) with
    ⟨a, b, ha, hb, hab⟩ | ⟨e, e', he, he'⟩
  · simp only [ha, hb]
    exact .ok hab
  · simp only [he, he']
    exact .error _ _

theorem list_follows (h : d.Follows schema R) :
    d.list.Follows (.list schema) (List.Forall₂ R) := by
  intro source value value' hvalue
  cases value with
  | array items =>
      obtain ⟨items', rfl, hitems⟩ := hvalue.array_left
      exact agree_mapM (hitems.forall₂ fun _ => rfl) fun a _ b hab => h source a b hab
  | object members =>
      obtain ⟨members', rfl, _⟩ := hvalue.object_left
      exact .error _ _
  | _ =>
      cases hvalue with
      | same => exact .error _ _

/-- Values that are kept for later are recased as they are kept. -/
theorem valueList_follows (schema : Schema) :
    valueList.Follows (.list schema) (List.Forall₂ (Recased schema)) := by
  refine list_follows fun source value value' h => ?_
  simp only [h.review_eq]
  cases value'.review with
  | error e => exact .error e e
  | ok u => exact .ok h

theorem nullable_follows (h : d.Follows schema R) :
    d.nullable.Follows schema (Option.Rel R) := by
  intro source value value' hvalue
  have hsome : (d.map some).Follows schema (Option.Rel R) :=
    map_follows h fun _ _ => Option.Rel.some
  have hread := hsome source value value' hvalue
  cases hvalue with
  | same =>
      cases value with
      | null => exact .ok .none
      | _ => exact hread
  | hex | array | object => exact hread

end Decoder

/-- What is made of recased members or items agrees, if the members have these schemas by
their names. -/
structure Fields.Follow (fields : Fields α) (schemas : String → Schema) (R : α → α → Prop) :
    Prop where
  check : ∀ source, ∀ name ∈ fields.names, ∀ value value', Recased (schemas name) value value' →
    Agree Eq (fields.check source name value) (fields.check source name value')
  ofMembers : ∀ source members members', RecasedMembers schemas members members' →
    Agree R (fields.ofMembers source members) (fields.ofMembers source members')
  ofItems : ∀ source short position items items' (places : Nat → Schema),
    (∀ i (h : i < fields.names.length), places i = schemas fields.names[i]) →
    RecasedItems places items items' →
    Agree (fun (a, taken, rest) (b, taken', rest') => R a b ∧ taken = taken' ∧
        RecasedItems (fun i => places (i + fields.names.length)) rest rest')
      (fields.ofItems source short position items) (fields.ofItems source short position items')

namespace Fields

variable {schemas : String → Schema} {R : α → α → Prop} {S : β → β → Prop}

theorem nextItem_agree {places : Nat → Schema} {items items' : List Json}
    (h : RecasedItems places items items') :
    Agree (Option.Rel fun (item, rest) (item', rest') => Recased (places 0) item item' ∧
      RecasedItems (fun i => places (i + 1)) rest rest') (nextItem items) (nextItem items') := by
  cases h with
  | nil => exact .ok .none
  | @cons _ item _ _ _ hitem hrest =>
      have hnext := And.intro hitem hrest
      generalize places 0 = schema at hitem hnext ⊢
      cases hitem with
      | same =>
          cases item with
          | unclosed fault => exact .error _ _
          | _ => exact .ok (.some hnext)
      | hex | array | object => exact .ok (.some hnext)

theorem field_follow {name : String} {d : Decoder α} {absent : Option α}
    (h : d.Follows (schemas name) R) (habsent : ∀ a ∈ absent, R a a) :
    (field name d absent).Follow schemas R := by
  refine ⟨fun source other hother value value' hvalue => ?_,
    fun source members members' hmembers => ?_,
    fun source short position items items' places hplaces hitems => ?_⟩
  · rw [List.mem_singleton.1 hother] at hvalue
    simp only [field]
    rcases agree_iff.1 (h source value value' hvalue) with ⟨a, b, ha, hb, _⟩ | ⟨e, e', he, he'⟩
    · simp only [ha, hb]
      exact .ok rfl
    · simp only [he, he']
      exact .error _ _
  · simp only [field]
    have hlookup := hmembers.lookup name
    generalize members.lookup name = found, members'.lookup name = found' at hlookup ⊢
    cases hlookup with
    | none =>
        cases absent with
        | none => exact .error _ _
        | some a => exact .ok (habsent a rfl)
    | some hvalue => exact h source _ _ hvalue
  · simp only [field]
    have hfirst : places 0 = schemas name := hplaces 0 Nat.one_pos
    rcases agree_iff.1 (nextItem_agree hitems) with
      ⟨next, next', hnext, hnext', hrel⟩ | ⟨e, e', he, he'⟩
    · simp only [hnext, hnext']
      cases hrel with
      | none =>
          cases absent with
          | none => exact .error _ _
          | some a => exact .ok ⟨habsent a rfl, rfl, .nil⟩
      | @some step step' hstep =>
          obtain ⟨item, rest⟩ := step
          obtain ⟨item', rest'⟩ := step'
          obtain ⟨hitem, hrest⟩ := hstep
          rw [hfirst] at hitem
          simp only []
          rcases agree_iff.1 (h source item item' hitem) with
            ⟨a, b, ha, hb, hab⟩ | ⟨e, e', he, he'⟩
          · simp only [ha, hb]
            exact .ok ⟨hab, rfl, hrest⟩
          · simp only [he, he']
            exact .error _ _
    · simp only [he, he']
      exact .error _ _

theorem map_follow {fields : Fields α} {f : α → β} (h : fields.Follow schemas R)
    (hf : ∀ a b, R a b → S (f a) (f b)) : (f <$> fields).Follow schemas S := by
  refine ⟨h.check, fun source members members' hmembers => ?_,
    fun source short position items items' places hplaces hitems => ?_⟩
  · simp only [Functor.map]
    rcases agree_iff.1 (h.ofMembers source members members' hmembers) with
      ⟨a, b, ha, hb, hab⟩ | ⟨e, e', he, he'⟩
    · simp only [ha, hb]
      exact .ok (hf a b hab)
    · simp only [he, he']
      exact .error _ _
  · simp only [Functor.map]
    rcases agree_iff.1 (h.ofItems source short position items items' places hplaces hitems) with
      ⟨⟨a, taken, rest⟩, ⟨b, taken', rest'⟩, ha, hb, hab, htaken, hrest⟩ | ⟨e, e', he, he'⟩
    · simp only [ha, hb]
      exact .ok ⟨hf a b hab, htaken, hrest⟩
    · simp only [he, he']
      exact .error _ _

/-- The second part of a record's items begins behind the first. -/
theorem seq_follow {fs : Fields (α → β)} {as : Fields α}
    (hf : fs.Follow schemas fun f g => ∀ a b, R a b → S (f a) (g b))
    (ha : as.Follow schemas R) : (fs <*> as).Follow schemas S := by
  have hnames : (fs <*> as).names = fs.names ++ as.names := rfl
  refine ⟨fun source name hname value value' hvalue => ?_,
    fun source members members' hmembers => ?_,
    fun source short position items items' places hplaces hitems => ?_⟩
  · simp only [Seq.seq]
    by_cases hfirst : name ∈ fs.names
    · rw [if_pos hfirst, if_pos hfirst]
      exact hf.check source name hfirst value value' hvalue
    · rw [if_neg hfirst, if_neg hfirst]
      exact ha.check source name ((List.mem_append.1 hname).resolve_left hfirst) value value' hvalue
  · simp only [Seq.seq]
    rcases agree_iff.1 (hf.ofMembers source members members' hmembers) with
      ⟨f, g, hfm, hgm, hfg⟩ | ⟨e, e', he, he'⟩
    · rcases agree_iff.1 (ha.ofMembers source members members' hmembers) with
        ⟨a, b, ham, hbm, hab⟩ | ⟨e, e', he, he'⟩
      · simp only [hfm, hgm, ham, hbm]
        exact .ok (hfg a b hab)
      · simp only [hfm, hgm, he, he']
        exact .error _ _
    · simp only [he, he']
      exact .error _ _
  · simp only [Seq.seq]
    have hfront : ∀ i (h : i < fs.names.length), places i = schemas fs.names[i] := by
      intro i h
      rw [hplaces i (by rw [hnames, List.length_append]; omega)]
      simp only [hnames, List.getElem_append_left h]
    rcases agree_iff.1 (hf.ofItems source short position items items' places hfront hitems) with
      ⟨⟨f, taken, rest⟩, ⟨g, taken', rest'⟩, hfm, hgm, hfg, rfl, hrest⟩ | ⟨e, e', he, he'⟩
    · have hbehind : ∀ i (h : i < as.names.length),
          places (i + fs.names.length) = schemas as.names[i] := by
        intro i h
        rw [hplaces (i + fs.names.length) (by rw [hnames, List.length_append]; omega)]
        simp only [hnames, List.getElem_append_right (Nat.le_add_left _ i), Nat.add_sub_cancel]
      rcases agree_iff.1 (ha.ofItems source short taken rest rest' _ hbehind hrest) with
        ⟨⟨a, taken, rest⟩, ⟨b, taken', rest'⟩, ham, hbm, hab, htaken, hrest⟩ | ⟨e, e', he, he'⟩
      · simp only [hfm, hgm, ham, hbm]
        refine .ok ⟨hfg a b hab, htaken, ?_⟩
        simpa only [hnames, List.length_append, Nat.add_assoc, Nat.add_comm fs.names.length]
          using hrest
      · simp only [hfm, hgm, he, he']
        exact .error _ _
    · simp only [he, he']
      exact .error _ _

/-! ## Fields of one kind -/

section Kinds

variable {name : String} {d : Decoder α}

/-- A text that is a key, a hash or a signature. -/
theorem digits_follow (name : String) (hname : schemas name = .hex) :
    (required name Decoder.text).Follow schemas SameDigits :=
  field_follow (hname ▸ Decoder.text_follows) fun _ h => nomatch h

/-- Octets that are read with the shape of the document. -/
theorem octets_follow {n : Nat} (name : String) (hname : schemas name = .hex) :
    (required name (Octets.decoder n)).Follow schemas Eq :=
  field_follow (hname ▸ Decoder.octets_follows n) fun _ h => nomatch h

theorem nullable_follow (schemas : String → Schema) {schema : Schema} (name : String)
    (hname : schemas name = schema) (h : d.Follows schema R) :
    (nullable name d).Follow schemas (Option.Rel R) := by
  show (field name d.nullable (some none)).Follow schemas _
  refine field_follow (hname ▸ Decoder.nullable_follows h) fun _ h => ?_
  cases h
  exact .none

theorem nullable_digits_follow (name : String) (hname : schemas name = .hex) :
    (nullable name Decoder.text).Follow schemas (Option.Rel SameDigits) :=
  nullable_follow schemas name hname Decoder.text_follows

theorem required_follow (hname : schemas name = .other) : (required name d).Follow schemas Eq :=
  field_follow (hname ▸ Decoder.follows_other d) fun _ h => nomatch h

theorem optional_follow {absent : α} (hname : schemas name = .other) :
    (optional name d absent).Follow schemas Eq :=
  field_follow (hname ▸ Decoder.follows_other d) fun _ _ => rfl

theorem list_follow (schemas : String → Schema) {schema : Schema} {entries : Decoder (List α)}
    (name : String) (hname : schemas name = schema)
    (h : entries.Follows schema (List.Forall₂ R)) :
    (optional name entries []).Follow schemas (List.Forall₂ R) := by
  refine field_follow (hname ▸ h) fun _ h => ?_
  cases h
  exact .nil

end Kinds

/-! ## Reading records -/

variable {fields : Fields α}

/-- A value that stands as a member of an object, and not for a fault in its place. -/
structure IsMember (value : Json) : Prop where
  closed : ∀ fault, value ≠ .unclosed fault
  named : ∀ fault inside, value ≠ .misnamed fault inside

theorem visit_cons {source : Source} {seen : List String} {name : String} {value : Json}
    (h : IsMember value) (rest : List (String × Json)) :
    visit fields source seen ((name, value) :: rest) =
      if name ∈ fields.names then
        if name ∈ seen then .error (.duplicate name)
        else fields.check source name value >>= fun _ => visit fields source (name :: seen) rest
      else value.pass.mapError .fault >>= fun _ => visit fields source seen rest := by
  rw [visit]
  · cases fields.check source name value <;> cases value.pass <;> rfl
  · exact h.closed
  · exact h.named

theorem visit_cons_agree (h : fields.Follow schemas R) (source : Source) (seen : List String)
    {name : String} {value value' : Json} {rest rest' : List (String × Json)}
    (hvalue : Recased (schemas name) value value') (hmember : IsMember value)
    (hmember' : IsMember value') (hrest : ∀ seen, Agree Eq (visit fields source seen rest)
      (visit fields source seen rest')) :
    Agree Eq (visit fields source seen ((name, value) :: rest))
      (visit fields source seen ((name, value') :: rest')) := by
  rw [visit_cons hmember, visit_cons hmember']
  by_cases hname : name ∈ fields.names
  · rw [if_pos hname, if_pos hname]
    by_cases hseen : name ∈ seen
    · rw [if_pos hseen, if_pos hseen]
      exact .error _ _
    · rw [if_neg hseen, if_neg hseen]
      exact agree_bind (h.check source name hname value value' hvalue) fun _ _ _ => hrest _
  · rw [if_neg hname, if_neg hname, hvalue.pass_eq]
    exact agree_bind (agree_self _) fun _ _ _ => hrest _

/-- What stands for a fault is the same in both. -/
theorem visit_agree (h : fields.Follow schemas R) (source : Source) (seen : List String)
    {members members' : List (String × Json)} (hmembers : RecasedMembers schemas members members') :
    Agree Eq (visit fields source seen members) (visit fields source seen members') := by
  induction members generalizing seen members' with
  | nil =>
      cases hmembers
      exact .ok rfl
  | cons member rest ih =>
      cases hmembers with
      | @cons _ name value value' _ rest' hvalue hrest =>
          have hboth := fun hmember hmember' =>
            visit_cons_agree h source seen hvalue hmember hmember' fun _ => ih _ hrest
          generalize schemas name = schema at hvalue
          cases hvalue with
          | same =>
              cases value with
              | unclosed fault | misnamed fault => exact .error _ _
              | _ => exact hboth ⟨nofun, nofun⟩ ⟨nofun, nofun⟩
          | hex | array | object => exact hboth ⟨nofun, nofun⟩ ⟨nofun, nofun⟩

theorem ofObject_agree (h : fields.Follow schemas R) (source : Source)
    {members members' : List (String × Json)} (hmembers : RecasedMembers schemas members members') :
    Agree R (fields.ofObject source members) (fields.ofObject source members') := by
  unfold ofObject
  rcases agree_iff.1 (visit_agree h source [] hmembers) with
    ⟨_, _, ha, hb, _⟩ | ⟨e, e', he, he'⟩
  · simp only [ha, hb]
    exact h.ofMembers source members members' hmembers
  · simp only [he, he']
    exact .error _ _

theorem endItems_agree {places : Nat → Schema} (source : Source) (taken total total' : Nat)
    {items items' : List Json} (h : RecasedItems places items items') :
    Agree Eq (endItems source taken total items) (endItems source taken total' items') := by
  cases h with
  | nil => exact .ok rfl
  | @cons _ item _ _ _ hitem hrest =>
      generalize places 0 = schema at hitem
      cases hitem with
      | same => cases item <;> exact .error _ _
      | hex | array | object => exact .error _ _

/-- A record follows a schema that has its fields under their names and in their order. -/
theorem record_follows {parts : List (String × Schema)} (label : String)
    (h : fields.Follow (Schema.record parts).member R)
    (hnames : fields.names <+: parts.map Prod.fst) :
    (fields.record label).Follows (.record parts) R := by
  intro source value value' hvalue
  cases value with
  | object members =>
      obtain ⟨members', rfl, hmembers⟩ := hvalue.object_left
      exact ofObject_agree h source hmembers
  | array items =>
      obtain ⟨items', rfl, hitems⟩ := hvalue.array_left
      simp only [record]
      rcases agree_iff.1 (h.ofItems source (short label fields.names.length) 0 items items'
          _ (Schema.item_record hnames) hitems) with
        ⟨⟨a, taken, rest⟩, ⟨b, taken', rest'⟩, ha, hb, hab, rfl, hrest⟩ | ⟨e, e', he, he'⟩
      · simp only [ha, hb]
        rcases agree_iff.1 (endItems_agree source taken items.length
            items'.length hrest) with
          ⟨_, _, hu, hv, _⟩ | ⟨e, e', he, he'⟩
        · simp only [hu, hv]
          exact .ok hab
        · simp only [he, he']
          exact .error _ _
      · simp only [he, he']
        exact .error _ _
  | _ =>
      cases hvalue with
      | same => exact .error _ _

/-- A list of records, which is empty if it is absent. -/
theorem records_follow {parts : List (String × Schema)} (schemas : String → Schema)
    (name label : String) (hname : schemas name = .list (.record parts))
    (h : fields.Follow (Schema.record parts).member R)
    (hnames : fields.names <+: parts.map Prod.fst) :
    (optional name (.list (fields.record label)) []).Follow schemas (List.Forall₂ R) :=
  list_follow schemas name hname (Decoder.list_follows (record_follows label h hnames))

/-- A list of records of which nothing is left that may differ. -/
theorem equal_records_follow {parts : List (String × Schema)} (schemas : String → Schema)
    (name label : String) (hname : schemas name = .list (.record parts))
    (h : fields.Follow (Schema.record parts).member Eq)
    (hnames : fields.names <+: parts.map Prod.fst) :
    (optional name (.list (fields.record label)) []).Follow schemas Eq := by
  rw [← List.forall₂_eq_eq_eq]
  exact records_follow schemas name label hname h hnames

/-- Two records in one object, both with fields under the names of one schema. -/
theorem beside_follows (schema : Schema) {own : Fields α} {shared : Fields β} (label : String)
    (hown : own.Follow schema.member R) (hshared : shared.Follow schema.member S) :
    (own.beside label shared).Follows schema fun x y => S x.1 y.1 ∧ R x.2 y.2 := by
  intro source value value' hvalue
  cases value with
  | object members =>
      obtain ⟨members', rfl, hmembers⟩ := hvalue.object_left
      simp only [beside]
      rcases agree_iff.1 (ofObject_agree hown source hmembers) with
        ⟨a, a', ha, ha', hR⟩ | ⟨e, e', he, he'⟩
      · rcases agree_iff.1 (ofObject_agree hshared .leftover hmembers) with
          ⟨b, b', hb, hb', hS⟩ | ⟨e, e', he, he'⟩
        · simp only [ha, ha', hb, hb']
          exact .ok ⟨hS, hR⟩
        · simp only [ha, ha', he, he']
          exact .error _ _
      · simp only [he, he']
        exact .error _ _
  | array items =>
      obtain ⟨items', rfl, _⟩ := hvalue.array_left
      exact .error _ _
  | string text => cases hvalue <;> exact .error _ _
  | _ =>
      cases hvalue with
      | same => exact .error _ _

end Fields

end Json

end DriveChain
