import DriveChain.Proofs.Stops
import Mathlib.Data.List.Forall2

/-!
# The texts of the values in a text

A value that is read inside a text can be cut out of it: the bytes from its first to
its last are read on their own, and give the same value. For a list this means that
its items have texts of their own, which stand in the text of the list one behind the
other.

A text may break off in a value, and what is read then has no text. But such a value
cannot be passed over: something in it stands for the fault. So the first thing to see
is that reading comes to an end wherever the value can be passed over. Items that stand
for a fault cannot, and all others were read.
-/

namespace DriveChain

namespace Json

/-! ## Values that can be passed over -/

/-- Values without parts. -/
def IsAtom : Json → Prop
  | .array _ => False
  | .object _ => False
  | _ => True

/-- What comes of reading a value without parts: if it can be passed over, then it has an end. -/
structure Read.Atomic (read : Read) : Prop where
  atom : read.value.IsAtom
  ends : read.value.pass = .ok () → read.rest.isSome

theorem stop_atomic (fault : Fault) : (Read.stop fault).Atomic :=
  ⟨trivial, fun h => (by cases h)⟩

theorem readWord_atomic {value : Json} (hvalue : value.IsAtom) (word bytes : List UInt8) :
    (readWord value word bytes).Atomic := by
  induction word generalizing bytes with
  | nil => exact ⟨hvalue, fun _ => rfl⟩
  | cons expected word ih =>
      cases bytes with
      | nil => exact stop_atomic _
      | cons b bytes =>
          rw [readWord]
          split
          · exact ih bytes
          · exact stop_atomic _

theorem readString_atomic (bytes : List UInt8) : (readString bytes).Atomic := by
  unfold readString
  split
  · exact ⟨trivial, fun _ => rfl⟩
  · exact ⟨trivial, fun _ => rfl⟩
  · exact ⟨trivial, fun h => (by cases h)⟩
  · exact stop_atomic _

theorem ofParts_isAtom (negative : Bool) (whole : List Nat) (fraction : Option (List Nat))
    (exponent : Option (Bool × List Nat)) : (ofParts negative whole fraction exponent).IsAtom := by
  unfold ofParts
  dsimp only
  repeat' split
  all_goals trivial

section

variable {negative : Bool} {whole : List Nat} {fraction : Option (List Nat)}

theorem lackingDigit_atomic (bytes : List UInt8) : (lackingDigit bytes).Atomic := by
  cases bytes with
  | nil => exact ⟨trivial, fun h => (by cases h)⟩
  | cons b bytes => exact stop_atomic _

theorem readRun_atomic {next : List Nat → List UInt8 → Read}
    (hnext : ∀ ds rest, (next ds rest).Atomic) (bytes : List UInt8) :
    (readRun next bytes).Atomic := by
  unfold readRun
  split
  · exact lackingDigit_atomic _
  · exact hnext _ _

theorem readPower_atomic (down : Bool) (bytes : List UInt8) :
    (readPower negative whole fraction down bytes).Atomic :=
  readRun_atomic (fun _ _ => ⟨ofParts_isAtom .., fun _ => rfl⟩) bytes

theorem readExponent_atomic (bytes : List UInt8) :
    (readExponent negative whole fraction bytes).Atomic := by
  unfold readExponent
  split
  next down bytes _ => exact readPower_atomic down bytes

theorem readEnd_atomic (bytes : List UInt8) : (readEnd negative whole fraction bytes).Atomic := by
  unfold readEnd
  split
  · exact readExponent_atomic _
  · exact readExponent_atomic _
  · exact ⟨ofParts_isAtom .., fun _ => rfl⟩

theorem readTail_atomic (bytes : List UInt8) : (readTail negative whole bytes).Atomic := by
  cases bytes with
  | nil => exact ⟨ofParts_isAtom .., fun _ => rfl⟩
  | cons b bytes =>
      by_cases hpoint : b = 46
      · subst hpoint
        rw [readTail_point]
        exact readRun_atomic (fun _ _ => readEnd_atomic _) bytes
      · rw [readTail_plain hpoint]
        exact readEnd_atomic _

theorem readDigits_atomic (bytes : List UInt8) : (readDigits negative bytes).Atomic := by
  rw [readDigits_eq]
  refine readRun_atomic (fun ds rest => ?_) bytes
  unfold readWhole
  split
  · exact stop_atomic _
  · exact readTail_atomic _

end

/-! ## What a reader of items does in a step -/

/-- What reading items comes to: a step reads one item, or none. -/
inductive ItemsStep (steps : Nat) (first : Bool) (bytes : List UInt8) :
    List Json → Option (List UInt8) → Prop
  /-- There is no item. -/
  | close {rest : List UInt8} (hclose : skipBlanks bytes = 93 :: rest) :
      ItemsStep steps first bytes [] (some rest)
  /-- There is a fault in the place of an item. -/
  | fault {v : Json} (hatom : v.IsAtom) (hpass : v.pass ≠ .ok ()) :
      ItemsStep steps first bytes [v] none
  /-- The item has no end. -/
  | halt {item : Json} (hitem : readValue steps (skipBlanks bytes) = ⟨item, none⟩) :
      ItemsStep steps first bytes [item] none
  | last {item : Json} {behind rest : List UInt8}
      (hitem : readValue steps (skipBlanks bytes) = ⟨item, some behind⟩)
      (hclose : skipBlanks behind = 93 :: rest) : ItemsStep steps first bytes [item] (some rest)
  /-- There is a fault behind the item. -/
  | cut {item v : Json} {behind : List UInt8}
      (hitem : readValue steps (skipBlanks bytes) = ⟨item, some behind⟩)
      (hatom : v.IsAtom) (hpass : v.pass ≠ .ok ()) : ItemsStep steps first bytes [item, v] none
  | next {item : Json} {behind rest : List UInt8}
      (hitem : readValue steps (skipBlanks bytes) = ⟨item, some behind⟩)
      (hcomma : skipBlanks behind = 44 :: rest) :
      ItemsStep steps first bytes (item :: (readItems steps false rest).1)
        (readItems steps false rest).2

theorem readItems_step (steps : Nat) (first : Bool) (bytes : List UInt8) :
    ItemsStep steps first bytes (readItems (steps + 1) first bytes).1
      (readItems (steps + 1) first bytes).2 := by
  rw [← readItems_skipBlanks]
  cases hbytes : skipBlanks bytes with
  | nil => cases first <;> exact .fault trivial fun h => (by cases h)
  | cons b tail =>
      have hb := isBlank_of_skipBlanks hbytes
      by_cases hclose : b = 93
      · subst hclose
        cases first with
        | false => exact .fault trivial fun h => (by cases h)
        | true => exact .close hbytes
      · rw [readItems_cons hb hclose, ← hbytes]
        split
        · next item hitem => exact .halt hitem
        · next item behind hitem =>
            unfold readMoreItems
            split
            · next rest hcomma => exact .next hitem hcomma
            · next rest hclose => exact .last hitem hclose
            · exact .cut hitem trivial fun h => (by cases h)
            · exact .cut hitem trivial fun h => (by cases h)

/-! ## The end of a value -/

/-- Within so many steps the readers of values come to the end of what can be passed over. -/
structure Ends (steps : Nat) : Prop where
  value (bytes : List UInt8) : (readValue steps bytes).value.pass = .ok () →
    (readValue steps bytes).rest.isSome
  items (first : Bool) (bytes : List UInt8) : passItems (readItems steps first bytes).1 = .ok () →
    (readItems steps first bytes).2.isSome
  members (first : Bool) (bytes : List UInt8) :
    passMembers (readMembers steps first bytes).1 = .ok () →
      (readMembers steps first bytes).2.isSome
  member (bytes : List UInt8) : (readMember steps bytes).value.pass = .ok () →
    (readMember steps bytes).rest.isSome
  more (name : String) (value : Json) (rest : Option (List UInt8)) :
    (value.pass = .ok () → rest.isSome) →
      passMembers (readMoreMembers steps name value rest).1 = .ok () →
        (readMoreMembers steps name value rest).2.isSome

theorem passItems_cons {item : Json} {items : List Json} :
    passItems (item :: items) = .ok () ↔ item.pass = .ok () ∧ passItems items = .ok () := by
  rw [passItems]
  cases item.pass with
  | error fault => simp
  | ok u => simp

theorem passMembers_cons {name : String} {value : Json} {members : List (String × Json)} :
    passMembers ((name, value) :: members) = .ok () ↔
      value.pass = .ok () ∧ passMembers members = .ok () := by
  rw [passMembers]
  cases value.pass with
  | error fault => simp
  | ok u => simp

namespace Ends

variable {steps : Nat}

theorem value_succ (ih : Ends steps) (bytes : List UInt8)
    (h : (readValue (steps + 1) bytes).value.pass = .ok ()) :
    (readValue (steps + 1) bytes).rest.isSome := by
  revert h
  rw [readValue]
  split
  · exact fun h => (by cases h)
  · split
    · exact (readWord_atomic (show IsAtom .null from trivial) _ _).ends
    · exact (readWord_atomic (show IsAtom (.bool true) from trivial) _ _).ends
    · exact (readWord_atomic (show IsAtom (.bool false) from trivial) _ _).ends
    · exact (readString_atomic _).ends
    · exact (readDigits_atomic _).ends
    · exact ih.items true _
    · exact ih.members true _
    · split
      · exact (readDigits_atomic _).ends
      · exact (stop_atomic _).ends

theorem items_succ (ih : Ends steps) (first : Bool) (bytes : List UInt8)
    (h : passItems (readItems (steps + 1) first bytes).1 = .ok ()) :
    (readItems (steps + 1) first bytes).2.isSome := by
  have hstep := readItems_step steps first bytes
  generalize readItems (steps + 1) first bytes = read at h hstep
  obtain ⟨items, rest⟩ := read
  cases hstep with
  | close hclose => rfl
  | fault hatom hpass => exact absurd (passItems_cons.1 h).1 hpass
  | halt hitem =>
      have hvalue := ih.value (skipBlanks bytes)
      rw [hitem] at hvalue
      cases hvalue (passItems_cons.1 h).1
  | last hitem hclose => rfl
  | cut hitem hatom hpass => exact absurd (passItems_cons.1 (passItems_cons.1 h).2).1 hpass
  | next hitem hcomma => exact ih.items false _ (passItems_cons.1 h).2

theorem member_succ (ih : Ends steps) (bytes : List UInt8)
    (h : (readMember (steps + 1) bytes).value.pass = .ok ()) :
    (readMember (steps + 1) bytes).rest.isSome := by
  revert h
  rw [readMember]
  split
  · exact ih.value _
  · exact fun h => (by cases h)
  · exact fun h => (by cases h)

theorem more_succ (ih : Ends steps) (name : String) (value : Json) (rest : Option (List UInt8))
    (hrest : value.pass = .ok () → rest.isSome)
    (h : passMembers (readMoreMembers (steps + 1) name value rest).1 = .ok ()) :
    (readMoreMembers (steps + 1) name value rest).2.isSome := by
  cases rest with
  | none => cases hrest (passMembers_cons.1 h).1
  | some rest =>
      revert h
      rw [readMoreMembers]
      split
      · exact fun h => ih.members false _ (passMembers_cons.1 h).2
      · exact fun _ => rfl
      · exact fun h => (by cases (passMembers_cons.1 h).2)
      · exact fun h => (by cases (passMembers_cons.1 h).2)

theorem named (ih : Ends steps) (quoted : Quoted)
    (h : passMembers (readNamed steps quoted).1 = .ok ()) :
    (readNamed steps quoted).2.isSome := by
  cases quoted with
  | text name rest => exact ih.more name _ _ (ih.member rest) h
  | flawed flaw isUnicode rest =>
      refine ih.more "" _ _ (fun hpass => ih.member rest ?_) h
      cases isUnicode with
      | true => exact hpass
      | false => exact hpass
  | stopped flaw fault => cases flaw <;> cases h

theorem members_succ (ih : Ends steps) (first : Bool) (bytes : List UInt8)
    (h : passMembers (readMembers (steps + 1) first bytes).1 = .ok ()) :
    (readMembers (steps + 1) first bytes).2.isSome := by
  rw [← readMembers_skipBlanks] at h ⊢
  cases hbytes : skipBlanks bytes with
  | nil =>
      rw [hbytes] at h
      cases first <;> cases h
  | cons b tail =>
      have hb := isBlank_of_skipBlanks hbytes
      rw [hbytes] at h
      by_cases hclose : b = 125
      · subst hclose
        cases first with
        | false => cases h
        | true => rfl
      by_cases hquote : b = 34
      · subst hquote
        rw [readMembers_quote] at h ⊢
        exact ih.named _ h
      · rw [readMembers_noName hb hclose hquote] at h
        cases h

end Ends

theorem ends (steps : Nat) : Ends steps := by
  induction steps with
  | zero =>
      refine ⟨fun _ h => ?_, fun _ _ h => ?_, fun _ _ h => ?_, fun _ h => ?_, fun _ _ _ _ h => ?_⟩
      · cases h
      · cases h
      · cases h
      · cases h
      · cases (passMembers_cons.1 h).2
  | succ steps ih =>
      exact ⟨ih.value_succ, ih.items_succ, ih.members_succ, ih.member_succ, ih.more_succ⟩

/-! ## Values inside a text -/

/-- The value is read from somewhere in the bytes on. -/
def Inside (bytes : List UInt8) (v : Json) : Prop :=
  ∃ steps tail, tail <:+ bytes ∧ (readValue steps tail).value = v

theorem Inside.mono {bytes bytes' : List UInt8} {v : Json} (h : Inside bytes v)
    (hsuffix : bytes <:+ bytes') : Inside bytes' v := by
  obtain ⟨steps, tail, htail, hv⟩ := h
  exact ⟨steps, tail, htail.trans hsuffix, hv⟩

theorem skipBlanks_suffix (bytes : List UInt8) : skipBlanks bytes <:+ bytes := by
  obtain ⟨front, hbytes, -⟩ := skipBlanks_stops bytes
  exact ⟨front, hbytes.symm⟩

theorem suffix_of_skipBlanks {bytes rest : List UInt8} {b : UInt8}
    (h : skipBlanks bytes = b :: rest) : rest <:+ bytes :=
  (List.suffix_cons b rest).trans (h ▸ skipBlanks_suffix bytes)

theorem Stops.suffix {ρ : Type} {read : Nat → List UInt8 → ρ} {result : List UInt8 → ρ}
    {bytes rest : List UInt8} (h : Stops read bytes result rest) : rest <:+ bytes := by
  obtain ⟨front, hbytes, -⟩ := h
  exact ⟨front, hbytes.symm⟩

/-- What a value is when it has been read. -/
theorem readValue_cases (steps : Nat) (bytes : List UInt8) :
    (readValue steps bytes).value.IsAtom ∨
      (∃ n tail, tail <:+ bytes ∧
        (readValue steps bytes).value = .array (readItems n true tail).1) ∨
      ∃ n tail, tail <:+ bytes ∧
        (readValue steps bytes).value = .object (readMembers n true tail).1 := by
  cases steps with
  | zero => exact .inl trivial
  | succ steps =>
      rw [readValue]
      split
      · exact .inl trivial
      · next b tail hbytes =>
          have htail := suffix_of_skipBlanks hbytes
          split
          · exact .inl (readWord_atomic (show IsAtom .null from trivial) _ _).atom
          · exact .inl (readWord_atomic (show IsAtom (.bool true) from trivial) _ _).atom
          · exact .inl (readWord_atomic (show IsAtom (.bool false) from trivial) _ _).atom
          · exact .inl (readString_atomic _).atom
          · exact .inl (readDigits_atomic _).atom
          · exact .inr (.inl ⟨steps, tail, htail, rfl⟩)
          · exact .inr (.inr ⟨steps, tail, htail, rfl⟩)
          · split
            · exact .inl (readDigits_atomic _).atom
            · exact .inl (stop_atomic _).atom

theorem inside_array {bytes : List UInt8} {items : List Json} (h : Inside bytes (.array items)) :
    ∃ n tail, tail <:+ bytes ∧ (readItems n true tail).1 = items := by
  obtain ⟨steps, tail, htail, hv⟩ := h
  obtain hatom | ⟨n, tail', htail', harray⟩ | ⟨n, tail', htail', hobject⟩ :=
    readValue_cases steps tail
  · rw [hv] at hatom
    exact hatom.elim
  · rw [hv] at harray
    cases harray
    exact ⟨n, tail', htail'.trans htail, rfl⟩
  · rw [hv] at hobject
    cases hobject

theorem inside_object {bytes : List UInt8} {members : List (String × Json)}
    (h : Inside bytes (.object members)) :
    ∃ n tail, tail <:+ bytes ∧ (readMembers n true tail).1 = members := by
  obtain ⟨steps, tail, htail, hv⟩ := h
  obtain hatom | ⟨n, tail', htail', harray⟩ | ⟨n, tail', htail', hobject⟩ :=
    readValue_cases steps tail
  · rw [hv] at hatom
    exact hatom.elim
  · rw [hv] at harray
    cases harray
  · rw [hv] at hobject
    cases hobject
    exact ⟨n, tail', htail'.trans htail, rfl⟩

/-- The items of a list that have parts are read in it. -/
theorem inside_of_mem_items {steps : Nat} {first : Bool} {bytes : List UInt8} {v : Json}
    (hv : ¬v.IsAtom) (h : v ∈ (readItems steps first bytes).1) : Inside bytes v := by
  induction steps generalizing first bytes with
  | zero =>
      cases List.mem_singleton.1 h
      exact absurd trivial hv
  | succ steps ih =>
      have hself : ∀ {item : Json} {rest : Option (List UInt8)},
          readValue steps (skipBlanks bytes) = ⟨item, rest⟩ → Inside bytes item :=
        fun hitem => ⟨steps, skipBlanks bytes, skipBlanks_suffix bytes, by rw [hitem]⟩
      have hstep := readItems_step steps first bytes
      generalize readItems (steps + 1) first bytes = read at h hstep
      obtain ⟨items, rest⟩ := read
      cases hstep with
      | close hclose => cases h
      | fault hatom hpass =>
          cases List.mem_singleton.1 h
          exact absurd hatom hv
      | halt hitem | last hitem hclose =>
          cases List.mem_singleton.1 h
          exact hself hitem
      | cut hitem hatom hpass =>
          obtain rfl | hfault := List.mem_cons.1 h
          · exact hself hitem
          · cases List.mem_singleton.1 hfault
            exact absurd hatom hv
      | next hitem hcomma =>
          obtain rfl | hmore := List.mem_cons.1 h
          · exact hself hitem
          · have hbehind := ((stopping steps).value hitem).suffix.trans (skipBlanks_suffix bytes)
            exact (ih hmore).mono ((suffix_of_skipBlanks hcomma).trans hbehind)

/-- Within so many steps the members of an object that have parts are found in it. -/
structure Finds (steps : Nat) : Prop where
  members {first : Bool} {bytes : List UInt8} {name : String} {v : Json} : ¬v.IsAtom →
    (name, v) ∈ (readMembers steps first bytes).1 → Inside bytes v
  more {name name' : String} {value v : Json} {rest : Option (List UInt8)} : ¬v.IsAtom →
    (name, v) ∈ (readMoreMembers steps name' value rest).1 →
      v = value ∨ ∃ bytes, rest = some bytes ∧ Inside bytes v

theorem readMember_inside {steps : Nat} {bytes : List UInt8}
    (hv : ¬(readMember steps bytes).value.IsAtom) :
    Inside bytes (readMember steps bytes).value := by
  cases steps with
  | zero => exact absurd trivial hv
  | succ steps =>
      rw [readMember] at hv ⊢
      split at hv
      · next tail hcolon => exact ⟨steps, tail, suffix_of_skipBlanks hcolon, rfl⟩
      · exact absurd trivial hv
      · exact absurd trivial hv

namespace Finds

variable {steps : Nat}

theorem more_succ (ih : Finds steps) {name name' : String} {value v : Json}
    {rest : Option (List UInt8)} (hv : ¬v.IsAtom)
    (h : (name, v) ∈ (readMoreMembers (steps + 1) name' value rest).1) :
    v = value ∨ ∃ bytes, rest = some bytes ∧ Inside bytes v := by
  cases rest with
  | none =>
      cases List.mem_singleton.1 h
      exact .inl rfl
  | some bytes =>
      rw [readMoreMembers] at h
      split at h
      · next tail hcomma =>
          obtain heq | hmore := List.mem_cons.1 h
          · cases heq
            exact .inl rfl
          · exact .inr ⟨bytes, rfl, (ih.members hv hmore).mono (suffix_of_skipBlanks hcomma)⟩
      · cases List.mem_singleton.1 h
        exact .inl rfl
      all_goals
        obtain heq | hfault := List.mem_cons.1 h
        · cases heq
          exact .inl rfl
        · cases List.mem_singleton.1 hfault
          exact absurd trivial hv

/-- What stands behind a name, whatever is made of the value there. -/
theorem behindName (ih : Finds steps) {bytes : List UInt8} {name name' : String}
    (wrap : Json → Json) (hwrap : ∀ value, (wrap value).IsAtom ∨ wrap value = value) {v : Json}
    (hv : ¬v.IsAtom) (h : (name, v) ∈ (readMoreMembers steps name'
      (wrap (readMember steps bytes).value) (readMember steps bytes).rest).1) :
    Inside bytes v := by
  obtain rfl | ⟨behind, hbehind, hinside⟩ := ih.more hv h
  · obtain hatom | hself := hwrap (readMember steps bytes).value
    · exact absurd hatom hv
    · rw [hself] at hv ⊢
      exact readMember_inside hv
  · have hmember : readMember steps bytes = ⟨(readMember steps bytes).value, some behind⟩ := by
      rw [← hbehind]
    exact hinside.mono ((stopping steps).member hmember).suffix

theorem members_succ (ih : Finds steps) {first : Bool} {bytes : List UInt8} {name : String}
    {v : Json} (hv : ¬v.IsAtom) (h : (name, v) ∈ (readMembers (steps + 1) first bytes).1) :
    Inside bytes v := by
  rw [← readMembers_skipBlanks] at h
  refine Inside.mono ?_ (skipBlanks_suffix bytes)
  cases hbytes : skipBlanks bytes with
  | nil =>
      rw [hbytes] at h
      cases List.mem_singleton.1 h
      exact absurd trivial hv
  | cons b tail =>
      have hb := isBlank_of_skipBlanks hbytes
      rw [hbytes] at h
      by_cases hclose : b = 125
      · subst hclose
        cases first with
        | false =>
            cases List.mem_singleton.1 h
            exact absurd trivial hv
        | true => cases h
      by_cases hquote : b = 34
      · subst hquote
        rw [readMembers_quote] at h
        refine Inside.mono ?_ (List.suffix_cons 34 tail)
        have hname := @readQuoted_stops ⟨[], none, none⟩ tail
        generalize readQuoted ⟨[], none, none⟩ tail = quoted at h hname
        cases quoted with
        | text name' behind =>
            exact (ih.behindName id (fun _ => .inr rfl) hv h).mono (hname rfl).suffix
        | flawed flaw isUnicode behind =>
            have hatom : ∀ v, (Json.misnamed flaw (passedString isUnicode v)).IsAtom :=
              fun _ => trivial
            exact (ih.behindName _ (fun v => .inl (hatom v)) hv h).mono (hname rfl).suffix
        | stopped flaw fault =>
            cases flaw with
            | none | some =>
                cases List.mem_singleton.1 h
                exact absurd trivial hv
      · rw [readMembers_noName hb hclose hquote] at h
        cases List.mem_singleton.1 h
        exact absurd trivial hv

end Finds

theorem finds (steps : Nat) : Finds steps := by
  induction steps with
  | zero =>
      refine ⟨fun hv h => ?_, fun hv h => ?_⟩
      · cases List.mem_singleton.1 h
        exact absurd trivial hv
      · obtain heq | hfault := List.mem_cons.1 h
        · cases heq
          exact .inl rfl
        · cases List.mem_singleton.1 hfault
          exact absurd trivial hv
  | succ steps ih => exact ⟨ih.members_succ, ih.more_succ⟩

/-- The items of a list inside a text that have parts are inside it too. -/
theorem Inside.item {bytes : List UInt8} {items : List Json} {v : Json}
    (h : Inside bytes (.array items)) (hmem : v ∈ items) (hv : ¬v.IsAtom) : Inside bytes v := by
  obtain ⟨n, tail, htail, rfl⟩ := inside_array h
  exact (inside_of_mem_items hv hmem).mono htail

/-- The members of an object inside a text that have parts are inside it too. -/
theorem Inside.member {bytes : List UInt8} {members : List (String × Json)} {name : String}
    {v : Json} (h : Inside bytes (.object members)) (hmem : (name, v) ∈ members)
    (hv : ¬v.IsAtom) : Inside bytes v := by
  obtain ⟨n, tail, htail, rfl⟩ := inside_object h
  exact ((finds n).members hv hmem).mono htail

/-! ## Texts of values -/

/-- The text is that of the value, from its first byte to its last. -/
structure IsTextOf (text : List UInt8) (v : Json) : Prop where
  start : skipBlanks text = text
  read : ∃ steps, readValue steps text = ⟨v, some []⟩

/-- The texts stand in the bytes, one behind the other. -/
inductive Apart : List (List UInt8) → List UInt8 → Prop
  | nil (bytes : List UInt8) : Apart [] bytes
  | cons (gap text : List UInt8) {texts : List (List UInt8)} {rest : List UInt8}
      (more : Apart texts rest) : Apart (text :: texts) (gap ++ (text ++ rest))

theorem Apart.mono {texts : List (List UInt8)} {bytes bytes' : List UInt8}
    (h : Apart texts bytes) (hsuffix : bytes <:+ bytes') : Apart texts bytes' := by
  obtain ⟨front, rfl⟩ := hsuffix
  cases h with
  | nil => exact .nil _
  | cons gap text more =>
      rw [← List.append_assoc]
      exact .cons (front ++ gap) text more

/-- Reading a text on its own gives its value, and nothing follows. -/
theorem IsTextOf.ofBytes {text : List UInt8} {v : Json} (h : IsTextOf text v) :
    Document.ofBytes text = ⟨v, false⟩ := by
  obtain ⟨steps, hread⟩ := h.read
  obtain ⟨front, htext, hfront⟩ := (stopping steps).value hread
  rw [List.append_nil] at htext
  subst htext
  have hself := hfront (4 * text.length + 4) [] (Nat.le_add_right ..) (List.nil_prefix)
  rw [List.append_nil] at hself
  unfold Document.ofBytes
  rw [hself]
  rfl

/-- A value that was read to its end has a text in front of what follows it. -/
theorem exists_text {steps : Nat} {bytes rest : List UInt8} {v : Json}
    (h : readValue steps (skipBlanks bytes) = ⟨v, some rest⟩) :
    ∃ text, IsTextOf text v ∧ skipBlanks bytes = text ++ rest := by
  have hstops := (stopping steps).value h
  cases hbytes : skipBlanks bytes with
  | nil =>
      rw [hbytes] at h
      cases steps <;> cases h
  | cons b tail =>
      have hb := isBlank_of_skipBlanks hbytes
      rw [hbytes] at hstops
      obtain ⟨front, rfl, hfront⟩ := hstops.exists_cons fun h => (by cases h)
      refine ⟨b :: front, ⟨skipBlanks_cons hb front, ?_⟩, rfl⟩
      have hself := hfront (4 * (front.length + 1)) [] (Nat.le_refl _) List.nil_prefix
      rw [List.append_nil] at hself
      exact ⟨_, hself⟩

/-- Items that can be passed over have their texts one behind the other. -/
theorem exists_texts {steps : Nat} {first : Bool} {bytes : List UInt8}
    (h : passItems (readItems steps first bytes).1 = .ok ()) :
    ∃ texts, Apart texts bytes ∧ List.Forall₂ IsTextOf texts (readItems steps first bytes).1 := by
  induction steps generalizing first bytes with
  | zero => cases h
  | succ steps ih =>
      have hstep := readItems_step steps first bytes
      generalize readItems (steps + 1) first bytes = read at h hstep ⊢
      obtain ⟨items, rest⟩ := read
      cases hstep with
      | close hclose => exact ⟨[], .nil bytes, .nil⟩
      | fault hatom hpass => exact absurd (passItems_cons.1 h).1 hpass
      | halt hitem =>
          have hend := (ends steps).value (skipBlanks bytes)
          rw [hitem] at hend
          cases hend (passItems_cons.1 h).1
      | @last item behind rest hitem hclose =>
          obtain ⟨text, htext, hbytes⟩ := exists_text hitem
          refine ⟨[text], Apart.mono ?_ (skipBlanks_suffix bytes), .cons htext .nil⟩
          rw [hbytes]
          exact .cons [] text (.nil behind)
      | cut hitem hatom hpass => exact absurd (passItems_cons.1 (passItems_cons.1 h).2).1 hpass
      | next hitem hcomma =>
          obtain ⟨text, htext, hbytes⟩ := exists_text hitem
          obtain ⟨texts, hapart, htexts⟩ := ih (passItems_cons.1 h).2
          refine ⟨text :: texts, Apart.mono ?_ (skipBlanks_suffix bytes), .cons htext htexts⟩
          rw [hbytes]
          exact .cons [] text (hapart.mono (suffix_of_skipBlanks hcomma))

/-- The items of a list inside a text have their texts in it, one behind the other. -/
theorem Inside.texts {bytes : List UInt8} {items : List Json} (h : Inside bytes (.array items))
    (hpass : passItems items = .ok ()) :
    ∃ texts, Apart texts bytes ∧ List.Forall₂ IsTextOf texts items := by
  obtain ⟨n, tail, htail, rfl⟩ := inside_array h
  obtain ⟨texts, hapart, htexts⟩ := exists_texts hpass
  exact ⟨texts, hapart.mono htail, htexts⟩

end Json

end DriveChain
