import DriveChain.Proofs.Members
import DriveChain.Proofs.Octets
import DriveChain.Transaction.Document

/-!
# Records are read as they are written

A decoder *reads* a value as something if the value is plain and that is what it
makes of it, wherever the value comes from. A record is read from members, and
what members it was *written* in is found along its definition: a field is
written as one member, or as none where its absence stands for the value, and
two parts of a record one after the other. The parts are independent of each
other as long as no name belongs to two of them, which is looked at once for the
whole record, where it is a matter of comparing texts.

Then a written record is read from its members in any order, and from members
that stand among those of another record.

For the other direction not much of a document matters, since most of what can
be decoded is sound as it is. `Fields.Makes` says that whatever a record is made
of, the result has a property.
-/

namespace DriveChain

variable {α β γ ε : Type}

/-! ## Lists of results -/

theorem except_bind_ok {x : Except ε α} {next : α → Except ε β} {b : β} :
    (x >>= next) = .ok b ↔ ∃ a, x = .ok a ∧ next a = .ok b := by
  cases x with
  | error e => simp [bind, Except.bind]
  | ok a => simp [bind, Except.bind]

theorem except_pure_ok {a b : α} : (pure a : Except ε α) = .ok b ↔ a = b := by
  simp [pure, Except.pure]

theorem mapM_map_ok {write : α → β} {read : β → Except ε γ} {make : α → γ} {as : List α}
    (h : ∀ a ∈ as, read (write a) = .ok (make a)) :
    (as.map write).mapM read = .ok (as.map make) := by
  induction as with
  | nil => rfl
  | cons a as ih =>
      rw [List.forall_mem_cons] at h
      rw [List.map_cons, List.mapM_cons, h.1, ih h.2]
      rfl

theorem mem_of_mapM_ok {read : α → Except ε β} {as : List α} {bs : List β}
    (h : as.mapM read = .ok bs) : ∀ b ∈ bs, ∃ a ∈ as, read a = .ok b := by
  induction as generalizing bs with
  | nil =>
      cases h
      intro b hb
      cases hb
  | cons a as ih =>
      rw [List.mapM_cons] at h
      simp only [except_bind_ok, except_pure_ok] at h
      obtain ⟨b, hb, bs, hbs, rfl⟩ := h
      refine List.forall_mem_cons.2 ⟨⟨a, List.mem_cons_self, hb⟩, fun b' hb' => ?_⟩
      obtain ⟨a', ha', hread⟩ := ih hbs b' hb'
      exact ⟨a', List.mem_cons_of_mem a ha', hread⟩

theorem length_of_mapM_ok {read : α → Except ε β} {as : List α} {bs : List β}
    (h : as.mapM read = .ok bs) : bs.length = as.length := by
  induction as generalizing bs with
  | nil =>
      cases h
      rfl
  | cons a as ih =>
      rw [List.mapM_cons] at h
      simp only [except_bind_ok, except_pure_ok] at h
      obtain ⟨b, _, bs, hbs, rfl⟩ := h
      rw [List.length_cons, ih hbs, List.length_cons]

namespace Json

/-! ## Values -/

/-- The decoder makes something of a plain value, wherever the value comes from. -/
structure Decoder.Reads (d : Decoder α) (value : Json) (a : α) : Prop where
  plain : value.Plain
  read : ∀ source, d source value = .ok a

namespace Decoder

theorem text_reads (s : String) : text.Reads (.string s) s :=
  ⟨.string s, fun _ => rfl⟩

theorem text_ok {source : Source} {value : Json} {s : String} :
    text source value = .ok s ↔ value = .string s := by
  cases value <;> simp [text]

theorem map_reads {d : Decoder α} {value : Json} {a : α} (f : α → β)
    (h : d.Reads value a) : (d.map f).Reads value (f a) :=
  ⟨h.plain, fun source => by rw [map, h.read]⟩

theorem check_reads {d : Decoder α} {value : Json} {a : α} {f : α → Except String β}
    {b : β} (h : d.Reads value a) (hf : f a = .ok b) : (d.check f).Reads value b := by
  refine ⟨h.plain, fun source => ?_⟩
  unfold check
  simp only [h.read, hf]

theorem check_ok {d : Decoder α} {f : α → Except String β} {source : Source} {value : Json}
    {b : β} : d.check f source value = .ok b ↔ ∃ a, d source value = .ok a ∧ f a = .ok b := by
  unfold check
  cases d source value with
  | error e => simp
  | ok a => cases hf : f a <;> simp [hf]

theorem octets_reads {n : Nat} (octets : Octets n) :
    (Octets.decoder n).Reads (.ofOctets octets) octets :=
  check_reads (text_reads octets.hex) (by rw [Octets.ofHex_hex])

theorem octets_ok {n : Nat} {source : Source} {value : Json} {octets : Octets n} :
    Octets.decoder n source value = .ok octets ↔
      ∃ s, value = .string s ∧ Octets.ofHex n s = .ok octets := by
  unfold Octets.decoder
  simp only [check_ok, text_ok]
  refine exists_congr fun s => and_congr_right fun _ => ?_
  cases Octets.ofHex n s <;> simp

/-- A number is read as whatever is made of it, provided that it is small enough. -/
theorem below_reads {bound n : Nat} {name : String} {make : Nat → α} {a : α}
    (h : n < bound) (hmake : make n = a) :
    ((below bound name).map make).Reads (natural n) a := by
  have hrange : (0 : Int) ≤ n ∧ (n : Int) < bound := by omega
  refine hmake ▸ map_reads make ⟨.number _, fun source => ?_⟩
  show (if (0 : Int) ≤ n ∧ (n : Int) < bound then Except.ok (n : Int).toNat
    else .error (Error.outOfRange n name)) = Except.ok n
  rw [if_pos hrange, Int.toNat_natCast]

theorem word8_reads (n : UInt8) : word8.Reads (natural n.toNat) n :=
  below_reads n.toNat_lt UInt8.ofNat_toNat

theorem word16_reads (n : UInt16) : word16.Reads (natural n.toNat) n :=
  below_reads n.toNat_lt UInt16.ofNat_toNat

theorem word32_reads (n : UInt32) : word32.Reads (natural n.toNat) n :=
  below_reads n.toNat_lt UInt32.ofNat_toNat

theorem pairItem_ok {source : Source} {position : Nat} {items rest : List Json} {item : Json}
    {word : UInt32} (hnext : nextItem items = .ok (some (item, rest)))
    (hword : word32 source item = .ok word) :
    pairItem source position items = .ok (word, rest) := by
  unfold pairItem
  simp only [hnext, hword]

theorem pair_reads (n : UInt64) : pair.Reads (.ofWord64 n) n := by
  refine ⟨.array fun item hitem => ?_, fun source => ?_⟩
  · simp only [List.mem_cons, List.not_mem_nil, or_false] at hitem
    obtain rfl | rfl := hitem
    · exact .number _
    · exact .number _
  · have hlow := (word32_reads (Words.low n)).read source
    have hhigh := (word32_reads (Words.high n)).read source
    rw [ofWord64, words]
    unfold pair
    simp only [except_bind_ok]
    exact ⟨_, pairItem_ok rfl hlow, _, pairItem_ok rfl hhigh, (), rfl,
      congrArg Except.ok (Words.join_low_high n)⟩

theorem list_reads {d : Decoder β} {write : α → Json} {make : α → β} {as : List α}
    (h : ∀ a ∈ as, d.Reads (write a) (make a)) :
    (list d).Reads (.array (as.map write)) (as.map make) := by
  refine ⟨.array (List.forall_mem_map.2 fun a ha => (h a ha).plain), fun source => ?_⟩
  exact mapM_map_ok fun a ha => (h a ha).read source

/-- Values that are kept for later are kept as they are. -/
theorem valueList_reads {values : List Json} (h : ∀ value ∈ values, value.Plain) :
    valueList.Reads (.array values) values := by
  have hread : valueList.Reads (.array (values.map id)) (values.map id) :=
    list_reads fun value hvalue => ⟨h value hvalue, fun _ => by rw [id, (h value hvalue).review_ok]⟩
  rw [List.map_id] at hread
  exact hread

theorem nullable_reads {d : Decoder α} {value : Json} {a : α} (h : d.Reads value a)
    (hvalue : value ≠ .null) : d.nullable.Reads value (some a) := by
  refine ⟨h.plain, fun source => ?_⟩
  have hsome : d.map some source value = .ok (some a) := by
    rw [map, h.read]
  cases value with
  | null => exact absurd rfl hvalue
  | _ => exact hsome

end Decoder

namespace Fields

/-! ## Written records -/

theorem names_seq (fs : Fields (α → β)) (as : Fields α) :
    (fs <*> as).names = fs.names ++ as.names := rfl

theorem ofMembers_map_ok {f : α → β} {fields : Fields α} {source : Source}
    {members : List (String × Json)} {b : β} :
    (f <$> fields).ofMembers source members = .ok b ↔
      ∃ a, fields.ofMembers source members = .ok a ∧ f a = b := by
  cases hmade : fields.ofMembers source members with
  | error e => simp [Functor.map, hmade]
  | ok a => simp [Functor.map, hmade]

theorem ofMembers_seq_ok {fs : Fields (α → β)} {as : Fields α} {source : Source}
    {members : List (String × Json)} {b : β} :
    (fs <*> as).ofMembers source members = .ok b ↔
      ∃ f a, fs.ofMembers source members = .ok f ∧
        as.ofMembers source members = .ok a ∧ f a = b := by
  cases hf : fs.ofMembers source members with
  | error e => simp [Seq.seq, hf]
  | ok f =>
      cases ha : as.ofMembers source members with
      | error e => simp [Seq.seq, hf, ha]
      | ok a => simp [Seq.seq, hf, ha]

/-- The members that a record is written in. What is read depends on no others,
whatever they are, as long as no two fields have one name. -/
structure Written (fields : Fields α) (members : List (String × Json)) (a : α) : Prop where
  names : (members.map Prod.fst).Sublist fields.names
  plain : ∀ m ∈ members, m.2.Plain
  made : fields.names.Nodup → ∀ (source : Source) (members' : List (String × Json)),
    (∀ name ∈ fields.names, members'.lookup name = members.lookup name) →
      fields.ofMembers source members' = .ok a
  checked : fields.names.Nodup → ∀ source, ∀ m ∈ members,
    fields.check source m.1 m.2 = .ok ()

theorem written_field {name : String} {d : Decoder α} {value : Json} {a : α}
    {absent : Option α} (h : d.Reads value a) :
    (field name d absent).Written [(name, value)] a := by
  refine ⟨List.Sublist.refl _, ?_, fun _ source members' hlookup => ?_, fun _ source => ?_⟩
  · simpa using h.plain
  · have hfound := hlookup name List.mem_cons_self
    rw [List.lookup_cons_self] at hfound
    simp only [field, hfound]
    exact h.read source
  · simp [field, h.read]

theorem written_required (name : String) {d : Decoder α} {value : Json} {a : α}
    (h : d.Reads value a) : (required name d).Written [(name, value)] a :=
  written_field h

theorem written_optional (name : String) {d : Decoder α} {value : Json} {a : α} (absent : α)
    (h : d.Reads value a) : (optional name d absent).Written [(name, value)] a :=
  written_field h

theorem written_absent (name : String) {d : Decoder α} {a : α} :
    (optional name d a).Written [] a := by
  refine ⟨List.nil_sublist _, by simp, fun _ source members' hlookup => ?_, by simp⟩
  have hfound := hlookup name List.mem_cons_self
  rw [List.lookup_nil] at hfound
  simp only [optional, field, hfound]

theorem written_some (name : String) {d : Decoder α} {value : Json} {a : α}
    (h : d.Reads value a) (hvalue : value ≠ .null) :
    (nullable name d).Written [(name, value)] (some a) :=
  written_optional name none (Decoder.nullable_reads h hvalue)

theorem written_nullable (name : String) {d : Decoder β} {write : α → Json} {make : α → β}
    (h : ∀ a, d.Reads (write a) (make a)) (hvalue : ∀ a, write a ≠ .null) (o : Option α) :
    (nullable name d).Written (optionalMember name write o) (o.map make) := by
  cases o with
  | none => exact written_absent name
  | some a => exact written_some name (h a) (hvalue a)

/-- A list of entries, each of which is read as something of its own. -/
theorem written_list (name : String) {d : Decoder β} {write : α → Json} {make : α → β}
    (h : ∀ a, d.Reads (write a) (make a)) (as : List α) :
    (optional name d.list []).Written [(name, .array (as.map write))] (as.map make) :=
  written_optional name [] (Decoder.list_reads fun a _ => h a)

theorem written_entries (name : String) {d : Decoder α} {write : α → Json}
    (h : ∀ a, d.Reads (write a) a) (as : List α) :
    (optional name d.list []).Written [(name, .array (as.map write))] as := by
  have hwritten := written_list name h as
  rw [List.map_id'] at hwritten
  exact hwritten

theorem Written.map {fields : Fields α} {members : List (String × Json)} {a : α}
    (h : fields.Written members a) (f : α → β) : (f <$> fields).Written members (f a) := by
  refine ⟨h.names, h.plain, fun hnodup source members' hlookup => ?_, h.checked⟩
  exact ofMembers_map_ok.2 ⟨a, h.made hnodup source members' hlookup, rfl⟩

/-- Members of another record do not stand in the way. -/
theorem Written.lookup_append_left {fields : Fields α} {members members' : List (String × Json)}
    {a : α} (h : fields.Written members' a) {name : String} (hname : name ∉ fields.names) :
    (members ++ members').lookup name = members.lookup name := by
  rw [List.lookup_append, lookup_eq_none (fun hmem => hname (h.names.subset hmem)),
    Option.or_none]

theorem Written.lookup_append_right {fields : Fields α} {members members' : List (String × Json)}
    {a : α} (h : fields.Written members a) {name : String} (hname : name ∉ fields.names) :
    (members ++ members').lookup name = members'.lookup name := by
  rw [List.lookup_append, lookup_eq_none (fun hmem => hname (h.names.subset hmem)),
    Option.none_or]

/-- Two parts of a record: a name of the one is not looked up among the members of
the other. -/
theorem Written.seq {fs : Fields (α → β)} {as : Fields α} {f : α → β} {a : α}
    {members members' : List (String × Json)} (hf : fs.Written members f)
    (ha : as.Written members' a) : (fs <*> as).Written (members ++ members') (f a) := by
  refine ⟨?_, ?_, fun hnodup source found hlookup => ?_, fun hnodup source => ?_⟩
  · rw [List.map_append, names_seq]
    exact hf.names.append ha.names
  · exact List.forall_mem_append.2 ⟨hf.plain, ha.plain⟩
  · obtain ⟨hnodup₁, hnodup₂, hdisjoint⟩ := List.nodup_append.1 hnodup
    have hmade : fs.ofMembers source found = .ok f := by
      refine hf.made hnodup₁ source found fun name hname => ?_
      rw [hlookup name (List.mem_append_left _ hname)]
      exact ha.lookup_append_left fun hmem => hdisjoint name hname name hmem rfl
    have hmade' : as.ofMembers source found = .ok a := by
      refine ha.made hnodup₂ source found fun name hname => ?_
      rw [hlookup name (List.mem_append_right _ hname)]
      exact hf.lookup_append_right fun hmem => hdisjoint name hmem name hname rfl
    exact ofMembers_seq_ok.2 ⟨f, a, hmade, hmade', rfl⟩
  · obtain ⟨hnodup₁, hnodup₂, hdisjoint⟩ := List.nodup_append.1 hnodup
    refine List.forall_mem_append.2 ⟨fun m hm => ?_, fun m hm => ?_⟩
    · have hname : m.1 ∈ fs.names := hf.names.subset (List.mem_map_of_mem hm)
      exact (if_pos hname).trans (hf.checked hnodup₁ source m hm)
    · have hname : m.1 ∉ fs.names := fun hmem =>
        hdisjoint m.1 hmem m.1 (ha.names.subset (List.mem_map_of_mem hm)) rfl
      exact (if_neg hname).trans (ha.checked hnodup₂ source m hm)

/-! ## Reading objects -/

theorem visit_own {fields : Fields α} {source : Source} {seen : List String} {name : String}
    {value : Json} (rest : List (String × Json)) (hplain : value.Plain)
    (hname : name ∈ fields.names) (hseen : name ∉ seen)
    (hcheck : fields.check source name value = .ok ()) :
    visit fields source seen ((name, value) :: rest) =
      visit fields source (name :: seen) rest := by
  cases hplain <;> simp only [visit, if_pos hname, if_neg hseen, hcheck]

theorem visit_other {fields : Fields α} {source : Source} {seen : List String} {name : String}
    {value : Json} (rest : List (String × Json)) (hplain : value.Plain)
    (hname : name ∉ fields.names) :
    visit fields source seen ((name, value) :: rest) = visit fields source seen rest := by
  have hpass := hplain.pass_ok
  cases hplain <;> simp only [visit, if_neg hname, hpass]

theorem visit_ok {fields : Fields α} {source : Source} {seen : List String}
    {members : List (String × Json)} (hnodup : (members.map Prod.fst).Nodup)
    (hseen : ∀ m ∈ members, m.1 ∉ seen) (hplain : ∀ m ∈ members, m.2.Plain)
    (hcheck : ∀ m ∈ members, m.1 ∈ fields.names → fields.check source m.1 m.2 = .ok ()) :
    visit fields source seen members = .ok () := by
  induction members generalizing seen with
  | nil => rfl
  | cons member rest ih =>
      obtain ⟨name, value⟩ := member
      rw [List.map_cons, List.nodup_cons] at hnodup
      rw [List.forall_mem_cons] at hseen hplain hcheck
      by_cases hname : name ∈ fields.names
      · rw [visit_own rest hplain.1 hname hseen.1 (hcheck.1 hname)]
        refine ih hnodup.2 (fun m hm hmem => ?_) hplain.2 hcheck.2
        rcases List.mem_cons.1 hmem with heq | hmem
        · exact hnodup.1 (List.mem_map.2 ⟨m, hm, heq⟩)
        · exact hseen.2 m hm hmem
      · rw [visit_other rest hplain.1 hname]
        exact ih hnodup.2 hseen.2 hplain.2 hcheck.2

/-- A record is read from its own members and others, in whatever order they
stand. -/
theorem Written.ofObject_ok {fields : Fields α} {own other members : List (String × Json)}
    {a : α} (h : fields.Written own a) (hnames : fields.names.Nodup)
    (hnodup : ((own ++ other).map Prod.fst).Nodup) (hplain : ∀ m ∈ other, m.2.Plain)
    (hother : ∀ m ∈ other, m.1 ∉ fields.names) (hperm : members.Perm (own ++ other))
    (source : Source) : fields.ofObject source members = .ok a := by
  have hvisit : visit fields source [] members = .ok () := by
    refine visit_ok ((hperm.map Prod.fst).nodup_iff.2 hnodup) (fun _ _ hmem => by cases hmem)
      (fun m hm => ?_) (fun m hm hname => ?_)
    · rcases List.mem_append.1 (hperm.mem_iff.1 hm) with hm | hm
      · exact h.plain m hm
      · exact hplain m hm
    · rcases List.mem_append.1 (hperm.mem_iff.1 hm) with hm | hm
      · exact h.checked hnames source m hm
      · exact absurd hname (hother m hm)
  unfold ofObject
  rw [hvisit]
  refine h.made hnames source members fun name hname => ?_
  have hmissing : other.lookup name = none := by
    refine lookup_eq_none fun hmem => ?_
    obtain ⟨m, hm, rfl⟩ := List.mem_map.1 hmem
    exact hother m hm hname
  rw [lookup_perm hperm hnodup, List.lookup_append, hmissing, Option.or_none]

/-- A record is read from an object of its members. -/
theorem Written.record_reads {fields : Fields α} {own members : List (String × Json)} {a : α}
    (h : fields.Written own a) (hnames : (nestedName :: fields.names).Nodup)
    (hperm : members.Perm own) (label : String) :
    (fields.record label).Reads (.object members) a := by
  rw [List.nodup_cons] at hnames
  have hnodup : (own.map Prod.fst).Nodup := hnames.2.sublist h.names
  refine ⟨.object (fun m hm heq => ?_) fun m hm => h.plain m (hperm.mem_iff.1 hm),
    fun source => ?_⟩
  · refine hnames.1 (h.names.subset ?_)
    rw [← heq]
    exact List.mem_map_of_mem (hperm.mem_iff.1 hm)
  · have hall := List.append_nil own
    exact h.ofObject_ok hnames.2 (hall.symm ▸ hnodup) (fun _ hm => by cases hm)
      (fun _ hm => by cases hm) (hall.symm ▸ hperm) source

theorem Written.ofMembers_reads {fields : Fields α} {own : List (String × Json)} {a : α}
    (h : fields.Written own a) (hnames : (nestedName :: fields.names).Nodup)
    (label : String) : (fields.record label).Reads (Json.ofMembers own) a :=
  h.record_reads hnames (Sorted.ofList_perm ((List.nodup_cons.1 hnames).2.sublist h.names)) label

theorem beside_ok {own : Fields α} {shared : Fields β} {label : String} {source : Source}
    {members : List (String × Json)} {a : α} {b : β} :
    own.beside label shared source (.object members) = .ok (b, a) ↔
      own.ofObject source members = .ok a ∧ shared.ofObject .leftover members = .ok b := by
  cases ha : own.ofObject source members with
  | error e => simp [beside, ha]
  | ok a' =>
      cases hb : shared.ofObject .leftover members with
      | error e => simp [beside, ha, hb]
      | ok b' => simp [beside, ha, hb, and_comm]

/-- Two records are read from an object of the members of both. -/
theorem Written.beside_reads {own : Fields α} {shared : Fields β}
    {members members' : List (String × Json)} {a : α} {b : β} (hb : shared.Written members b)
    (ha : own.Written members' a) (hnames : (nestedName :: (shared.names ++ own.names)).Nodup)
    (label : String) :
    (own.beside label shared).Reads (Json.ofMembers (members ++ members')) (b, a) := by
  have hboth : (Prod.mk <$> shared <*> own).Written (members ++ members') (b, a) :=
    (hb.map Prod.mk).seq ha
  have hplain := (hboth.ofMembers_reads hnames label).plain
  rw [List.nodup_cons] at hnames
  obtain ⟨hshared, hown, hdisjoint⟩ := List.nodup_append.1 hnames.2
  have hnodup := hnames.2.sublist hboth.names
  have hcomm : (members ++ members').Perm (members' ++ members) := List.perm_append_comm
  have hperm : (sorted (members ++ members')).Perm (members ++ members') :=
    Sorted.ofList_perm hnodup
  refine ⟨hplain, fun source => ?_⟩
  have hreadOwn : own.ofObject source (sorted (members ++ members')) = .ok a :=
    ha.ofObject_ok hown ((hcomm.map Prod.fst).nodup_iff.1 hnodup) hb.plain
      (fun m hm hname =>
        hdisjoint m.1 (hb.names.subset (List.mem_map_of_mem hm)) m.1 hname rfl)
      (hperm.trans hcomm) source
  have hreadShared : shared.ofObject .leftover (sorted (members ++ members')) = .ok b :=
    hb.ofObject_ok hshared hnodup ha.plain
      (fun m hm hname =>
        hdisjoint m.1 hname m.1 (ha.names.subset (List.mem_map_of_mem hm)) rfl)
      hperm .leftover
  exact beside_ok.2 ⟨hreadOwn, hreadShared⟩

/-! ## Where a field comes from -/

theorem nextItem_ok {items rest : List Json} {item : Json}
    (h : nextItem items = .ok (some (item, rest))) : items = item :: rest := by
  unfold nextItem at h
  split at h <;> cases h
  rfl

section Items

variable {source : Source} {short : Nat → Error} {position taken : Nat} {items rest : List Json}

theorem ofItems_map_ok {f : α → β} {fields : Fields α} {b : β}
    (h : (f <$> fields).ofItems source short position items = .ok (b, taken, rest)) :
    ∃ a, fields.ofItems source short position items = .ok (a, taken, rest) ∧ f a = b := by
  simp only [Functor.map] at h
  split at h <;> cases h
  next a hmade => exact ⟨a, hmade, rfl⟩

theorem ofItems_seq_ok {fs : Fields (α → β)} {as : Fields α} {b : β}
    (h : (fs <*> as).ofItems source short position items = .ok (b, taken, rest)) :
    ∃ f a middle behind, fs.ofItems source short position items = .ok (f, middle, behind) ∧
      as.ofItems source short middle behind = .ok (a, taken, rest) ∧ f a = b := by
  simp only [Seq.seq] at h
  split at h
  · cases h
  · next f middle behind hf =>
      split at h <;> cases h
      next a ha => exact ⟨f, a, middle, behind, hf, ha, rfl⟩

theorem ofItems_required {name : String} {d : Decoder α} {a : α}
    (h : (required name d).ofItems source short position items = .ok (a, taken, rest)) :
    ∃ item, items = item :: rest ∧ d source item = .ok a := by
  simp only [required, field] at h
  split at h
  · cases h
  · next item rest' hnext =>
      split at h <;> cases h
      next hitem => exact ⟨item, nextItem_ok hnext, hitem⟩
  · cases h

end Items

theorem lookup_of_required {name : String} {d : Decoder α} {source : Source}
    {members : List (String × Json)} {a : α}
    (h : (required name d).ofMembers source members = .ok a) :
    ∃ value, members.lookup name = some value ∧ d source value = .ok a := by
  simp only [required, field] at h
  split at h
  · next value hlookup => exact ⟨value, hlookup, h⟩
  · cases h

theorem ofMembers_required {name : String} {d : Decoder α} {source : Source}
    {members : List (String × Json)} {a : α}
    (h : (required name d).ofMembers source members = .ok a) :
    ∃ value, (name, value) ∈ members ∧ d source value = .ok a := by
  obtain ⟨value, hlookup, hvalue⟩ := lookup_of_required h
  exact ⟨value, mem_of_lookup hlookup, hvalue⟩

theorem ofMembers_of_ofObject {fields : Fields α} {source : Source}
    {members : List (String × Json)} {a : α} (h : fields.ofObject source members = .ok a) :
    fields.ofMembers source members = .ok a := by
  unfold ofObject at h
  split at h
  · cases h
  · exact h

/-! ## Whatever is read -/

/-- Whatever members a record is made from, it has a property. -/
def Makes (fields : Fields α) (P : α → Prop) : Prop :=
  ∀ source members a, fields.ofMembers source members = .ok a → P a

theorem makes_of_forall {fields : Fields α} {P : α → Prop} (h : ∀ a, P a) :
    fields.Makes P :=
  fun _ _ a _ => h a

theorem Makes.map {fields : Fields α} {f : α → β} {P : β → Prop}
    (h : fields.Makes fun a => P (f a)) : (f <$> fields).Makes P := by
  intro source members b hb
  obtain ⟨a, ha, rfl⟩ := ofMembers_map_ok.1 hb
  exact h source members a ha

theorem Makes.seq {fs : Fields (α → β)} {as : Fields α} {P : β → Prop}
    (h : fs.Makes fun f => ∀ a, P (f a)) : (fs <*> as).Makes P := by
  intro source members b hb
  obtain ⟨f, a, hf, _, rfl⟩ := ofMembers_seq_ok.1 hb
  exact h source members f hf a

theorem Makes.of_ofObject {fields : Fields α} {P : α → Prop} (h : fields.Makes P)
    {source : Source} {members : List (String × Json)} {a : α}
    (hread : fields.ofObject source members = .ok a) : P a :=
  h source members a (ofMembers_of_ofObject hread)

theorem makes_required {name : String} {d : Decoder α} {P : α → Prop}
    (h : ∀ source value a, d source value = .ok a → P a) : (required name d).Makes P := by
  intro source members a ha
  obtain ⟨value, -, hvalue⟩ := ofMembers_required ha
  exact h source value a hvalue

theorem Makes.beside {own : Fields α} {shared : Fields β} {P : α → Prop} (h : own.Makes P)
    {label : String} {source : Source} {value : Json} {b : β} {a : α}
    (hread : own.beside label shared source value = .ok (b, a)) : P a := by
  cases value with
  | object members => exact h.of_ofObject (beside_ok.1 hread).1
  | _ => cases hread

end Fields

end Json

end DriveChain
