import DriveChain.Proofs.WireForms
import DriveChain.Transaction.Aggregate
import Mathlib.Logic.Relation

/-!
# What aggregates hold

An aggregate in memory is new or was read, and from then on only two things are
done to it: a transaction is added behind those it holds, or a cosignature behind
those it has. A step of either kind leaves the header and all that is there
already as it is, so a run of any length adds a list to each of the two.

The rules for inner transactions are judged where one is added: it has a signer
and does not say that it is an aggregate. New aggregates hold at least one, and
only such. What a transaction says is all that is looked at, so an aggregate that
says something else of itself is taken in too; one that says what it is never is.

Readers judge less. They refuse an aggregate inside an aggregate, whichever form it
is in, but they ask for no inner transaction to be there and for none to have a
signer. So an aggregate that was read could have been built anew just if it is not
empty and all in it are signed for.
-/

namespace DriveChain

namespace Transaction

/-- Transactions that an aggregate takes in. -/
structure Admissible (tx : Transaction) : Prop where
  type : tx.type.shape ≠ .aggregate
  signer : tx.header.signer ≠ none

/-! ## The rules -/

theorem checkPart_ok {index : Nat} {tx : Transaction} {u : Unit} :
    checkPart index tx = .ok u ↔ tx.Admissible := by
  unfold checkPart
  by_cases htype : tx.type.isAggregate = true
  · rw [if_pos htype]
    refine ⟨fun h => (by cases h), fun h => ?_⟩
    exact absurd (isAggregate_iff.1 htype) h.type
  · rw [if_neg htype]
    rw [isAggregate_iff] at htype
    cases hsigner : tx.header.signer with
    | none =>
        refine ⟨fun h => (by cases h), fun h => ?_⟩
        exact absurd hsigner h.signer
    | some signer =>
        refine ⟨fun _ => ⟨htype, ?_⟩, fun _ => rfl⟩
        rw [hsigner]
        exact Option.some_ne_none signer

theorem checkParts_ok {index : Nat} {txs : List Transaction} {u : Unit} :
    checkParts index txs = .ok u ↔ ∀ tx ∈ txs, tx.Admissible := by
  induction txs generalizing index with
  | nil => simp [checkParts]
  | cons tx rest ih =>
      rw [checkParts, List.forall_mem_cons, ← @checkPart_ok index tx ()]
      cases hcheck : checkPart index tx with
      | error e => simp
      | ok v => simp [ih]

theorem newAggregate_ok {type : TransactionType} {deadline : Deadline}
    {inner : List Transaction} {network : Network} {tx : Transaction} :
    newAggregate type deadline inner network = .ok tx ↔
      inner ≠ [] ∧ (∀ part ∈ inner, part.Admissible) ∧
        tx = .aggregate (.new type network deadline) inner [] := by
  unfold newAggregate
  rw [← @checkParts_ok 0 inner ()]
  cases inner with
  | nil => simp
  | cons part rest =>
      cases hcheck : checkParts 0 (part :: rest) with
      | error e => simp
      | ok u => simp [eq_comm]

theorem push_ok {tx part tx' : Transaction} :
    push tx part = .ok tx' ↔ part.Admissible ∧ ∃ header inner cosignatures,
      tx = .aggregate header inner cosignatures ∧
        tx' = .aggregate header (inner ++ [part]) cosignatures := by
  cases tx with
  | single header payload => simp [push]
  | aggregate header inner cosignatures =>
      rw [push, ← @checkPart_ok inner.length part ()]
      cases hcheck : checkPart inner.length part with
      | error e => simp
      | ok u =>
          refine ⟨fun h => ?_, fun h => ?_⟩
          · cases h
            exact ⟨rfl, header, inner, cosignatures, rfl, rfl⟩
          · obtain ⟨_, _, _, _, heq, rfl⟩ := h
            cases heq
            rfl

/-! ## Where aggregates come from -/

/-- New aggregates, of either type. -/
inductive IsNew : Transaction → Prop
  | completed {deadline : Deadline} {inner : List Transaction} {network : Network}
      {tx : Transaction} : newCompleted deadline inner network = .ok tx → IsNew tx
  | bonded {deadline : Deadline} {inner : List Transaction} {network : Network}
      {tx : Transaction} : newBonded deadline inner network = .ok tx → IsNew tx

/-- Transactions that were read, from either form, as an aggregate or as whatever
type the form declares. -/
inductive IsRead : Transaction → Prop
  | bytes {b : List UInt8} {tx : Transaction} : ofBytes b = .ok tx → IsRead tx
  | aggregateBytes {b : List UInt8} {tx : Transaction} :
      ofBytesAs .aggregate b = .ok tx → IsRead tx
  | document {v : Json} {tx : Transaction} : ofJson v = .ok tx → IsRead tx
  | aggregateDocument {v : Json} {tx : Transaction} :
      ofJsonAs .aggregate v = .ok tx → IsRead tx

/-- What is done to an aggregate in memory. A transaction that is refused changes
nothing and is no step. -/
inductive Step : Transaction → Transaction → Prop
  | pushed {tx part tx' : Transaction} : push tx part = .ok tx' → Step tx tx'
  | cosigned (tx : Transaction) (c : Cosignature) :
      Step tx (tx.withCosignatures (tx.cosignatures ++ [c]))

/-- The transaction after any number of steps. -/
abbrev Grows : Transaction → Transaction → Prop :=
  Relation.ReflTransGen Step

theorem exists_of_isNew {tx : Transaction} (h : IsNew tx) :
    ∃ type network deadline inner, type.shape = .aggregate ∧ inner ≠ [] ∧
      (∀ part ∈ inner, part.Admissible) ∧
      tx = .aggregate (.new type network deadline) inner [] := by
  cases h with
  | completed h => exact ⟨_, _, _, _, rfl, newAggregate_ok.1 h⟩
  | bonded h => exact ⟨_, _, _, _, rfl, newAggregate_ok.1 h⟩

theorem wellTyped_of_isRead {tx : Transaction} (h : IsRead tx) : tx.WellTyped := by
  cases h with
  | bytes h => exact (ofBytes_ok.1 h).1.1
  | aggregateBytes h => exact (ofBytesAs_ok.1 h).2.1.1
  | document h => exact (ofJson_sound h).1
  | aggregateDocument h => exact (ofJsonAs_sound h).1

/-! ## Steps and runs -/

/-- A step puts at most one transaction and at most one cosignature behind what is
there. -/
theorem step_aggregate {header : Header} {inner : List Transaction}
    {cosignatures : List Cosignature} {tx : Transaction}
    (h : Step (.aggregate header inner cosignatures) tx) :
    ∃ added attached, (∀ part ∈ added, part.Admissible) ∧
      tx = .aggregate header (inner ++ added) (cosignatures ++ attached) := by
  cases h with
  | @pushed part _ h =>
      obtain ⟨hpart, _, _, _, heq, rfl⟩ := push_ok.1 h
      cases heq
      refine ⟨[part], [], ?_, ?_⟩
      · intro p hp
        rw [List.mem_singleton.1 hp]
        exact hpart
      · rw [List.append_nil]
  | cosigned c =>
      refine ⟨[], [c], ?_, ?_⟩
      · intro p hp
        cases hp
      · rw [List.append_nil]
        rfl

/-- A run of steps adds lists where a step adds one entry. -/
theorem grows_aggregate {header : Header} {inner : List Transaction}
    {cosignatures : List Cosignature} {tx : Transaction}
    (h : Grows (.aggregate header inner cosignatures) tx) :
    ∃ added attached, (∀ part ∈ added, part.Admissible) ∧
      tx = .aggregate header (inner ++ added) (cosignatures ++ attached) := by
  induction h with
  | refl =>
      refine ⟨[], [], ?_, ?_⟩
      · intro p hp
        cases hp
      · rw [List.append_nil, List.append_nil]
  | tail _ hstep ih =>
      obtain ⟨added, attached, hadded, rfl⟩ := ih
      obtain ⟨added', attached', hadded', rfl⟩ := step_aggregate hstep
      refine ⟨added ++ added', attached ++ attached', ?_, ?_⟩
      · exact List.forall_mem_append.2 ⟨hadded, hadded'⟩
      · rw [List.append_assoc, List.append_assoc]

/-- What an aggregate holds that is new and has grown. -/
theorem exists_of_grown {start tx : Transaction} (hnew : IsNew start)
    (hgrown : Grows start tx) :
    ∃ type network deadline inner cosignatures, type.shape = .aggregate ∧ inner ≠ [] ∧
      (∀ part ∈ inner, part.Admissible) ∧
      tx = .aggregate (.new type network deadline) inner cosignatures := by
  obtain ⟨type, network, deadline, inner, htype, hinner, hparts, rfl⟩ :=
    exists_of_isNew hnew
  obtain ⟨added, attached, hadded, rfl⟩ := grows_aggregate hgrown
  refine ⟨type, network, deadline, inner ++ added, _, htype, ?_, ?_, rfl⟩
  · intro hnil
    exact hinner (List.append_eq_nil_iff.1 hnil).1
  · exact List.forall_mem_append.2 ⟨hparts, hadded⟩

/-! ## What holds of all of them -/

theorem newAggregate_isOk {type : TransactionType} {deadline : Deadline}
    {inner : List Transaction} {network : Network} :
    (∃ made, newAggregate type deadline inner network = .ok made) ↔
      inner ≠ [] ∧ ∀ part ∈ inner, part.Admissible := by
  simp only [newAggregate_ok, exists_and_left, exists_eq, and_true]

theorem Admissible.shape_ne {tx : Transaction} (h : tx.Admissible)
    (htyped : tx.type.shape = tx.shape) : tx.shape ≠ .aggregate :=
  htyped ▸ h.type

/-- What was read says of nothing in it that it is an aggregate, and nothing in it is one. -/
theorem not_aggregate_of_isRead {tx part : Transaction} (h : IsRead tx)
    (hpart : part ∈ tx.inner) : part.type.shape ≠ .aggregate ∧ part.shape ≠ .aggregate := by
  obtain ⟨htype, hne⟩ := (wellTyped_of_isRead h).inner part hpart
  rw [htype]
  exact ⟨hne, hne⟩

/-- Aggregates that are new, and what they grow into, hold transactions, and only
such as an aggregate takes in; these are no aggregates if they bear types of what
they are. Those that were read hold no aggregates at all, and grow in the same way.
Whatever constructors are given, they take it just if it is not empty and all of it
is admissible. What an aggregate holds that was read, they take just if it is not
empty and all of it is signed for. -/
theorem inner_admissible (start tx : Transaction) (hgrown : Grows start tx) :
    (IsNew start → tx.inner ≠ [] ∧ ∀ part ∈ tx.inner, part.Admissible ∧
      (part.type.shape = part.shape → part.shape ≠ .aggregate)) ∧
    (IsRead start → start.shape = .aggregate →
      (∀ part ∈ start.inner, part.type.shape ≠ .aggregate ∧ part.shape ≠ .aggregate) ∧
      ∃ added, tx.inner = start.inner ++ added ∧ ∀ part ∈ added, part.Admissible ∧
        (part.type.shape = part.shape → part.shape ≠ .aggregate)) ∧
    (∀ deadline inner network,
      ((∃ made, newCompleted deadline inner network = .ok made) ↔
        inner ≠ [] ∧ ∀ part ∈ inner, part.Admissible) ∧
      ((∃ made, newBonded deadline inner network = .ok made) ↔
        inner ≠ [] ∧ ∀ part ∈ inner, part.Admissible)) ∧
    (IsRead start → ∀ deadline network,
      ((∃ made, newCompleted deadline start.inner network = .ok made) ↔
        start.inner ≠ [] ∧ ∀ part ∈ start.inner, part.header.signer ≠ none) ∧
      ((∃ made, newBonded deadline start.inner network = .ok made) ↔
        start.inner ≠ [] ∧ ∀ part ∈ start.inner, part.header.signer ≠ none)) := by
  refine ⟨fun hnew => ?_, fun hread hshape => ?_,
    fun _ _ _ => ⟨newAggregate_isOk, newAggregate_isOk⟩, fun hread deadline network => ?_⟩
  · obtain ⟨_, _, _, inner, _, _, hinner, hparts, rfl⟩ := exists_of_grown hnew hgrown
    exact ⟨hinner, fun part hpart => ⟨hparts part hpart, (hparts part hpart).shape_ne⟩⟩
  · refine ⟨fun part => not_aggregate_of_isRead hread, ?_⟩
    cases start with
    | single header payload => exact absurd hshape payload.shape_ne_aggregate
    | aggregate header inner cosignatures =>
        obtain ⟨added, _, hadded, rfl⟩ := grows_aggregate hgrown
        exact ⟨added, rfl, fun part hpart => ⟨hadded part hpart, (hadded part hpart).shape_ne⟩⟩
  · have hparts : (∀ part ∈ start.inner, part.Admissible) ↔
        ∀ part ∈ start.inner, part.header.signer ≠ none :=
      forall₂_congr fun part hpart =>
        ⟨fun h => h.signer, fun h => ⟨(not_aggregate_of_isRead hread hpart).1, h⟩⟩
    rw [← hparts]
    exact ⟨newAggregate_isOk, newAggregate_isOk⟩

/-! ## Aggregates of one who joins a drive -/

/-- Someone joins a drive, as a part of an aggregate. -/
def join : Transaction :=
  .single { Header.new .joinToDrive .mijinTest 0 with
    signer := some (.ofKey ⟨List.replicate 32 5, rfl⟩ .mijinTest) }
    (.joinToDrive (.ofKey ⟨List.replicate 32 6, rfl⟩ .mijinTest))

/-- The join with nobody who has signed for it. -/
def anonymousJoin : Transaction :=
  join.withHeader { join.header with signer := none }

/-- A bonded aggregate of the given transactions. -/
def bonded (inner : List Transaction) : Transaction :=
  .aggregate (.new .aggregateBonded .mijinTest 1) inner []

/-- The header of a bonded aggregate, in so many bytes. -/
def bondedHeader (size : UInt32) : List UInt8 :=
  bytes32 size ++ List.replicate 96 0 ++ [2, 0, 0, 0x90, 0x41, 0x42] ++ bytes64 0 ++ bytes64 1

/-- The bytes of a bonded aggregate that holds nothing. -/
def emptyBytes : List UInt8 :=
  bondedHeader 126 ++ bytes32 0

/-- The bytes of a bonded aggregate of one join that nobody has signed for. -/
def anonymousBytes : List UInt8 :=
  bondedHeader 200 ++ bytes32 74 ++
    (bytes32 74 ++ (List.replicate 32 0 ++ [1, 0, 0, 0x90, 0x5A, 0x42]) ++ List.replicate 32 6)

theorem join_admissible : join.Admissible :=
  ⟨by decide, Option.some_ne_none _⟩

theorem bonded_isNew {part : Transaction} (h : part.Admissible) : IsNew (bonded [part]) := by
  refine .bonded (newAggregate_ok.2 ⟨List.cons_ne_nil _ _, ?_, rfl⟩)
  intro p hp
  rw [List.mem_singleton.1 hp]
  exact h

theorem bonded_grows {inner : List Transaction} {part : Transaction} (h : part.Admissible) :
    Grows (bonded inner) (bonded (inner ++ [part])) :=
  .single (.pushed (push_ok.2 ⟨h, _, _, _, rfl, rfl⟩))

/-- The bytes of an aggregate of one join, whatever the header of the join says. -/
theorem bonded_join_toBytes (h : Header) : (bonded [join.withHeader h]).toBytes =
    .ok (bondedHeader 200 ++ bytes32 74 ++
      (bytes32 74 ++ h.identityBytes ++ List.replicate 32 6)) := by
  have hpart : (join.withHeader h).toEmbeddedBytes =
      .ok (bytes32 74 ++ h.identityBytes ++ List.replicate 32 6) :=
    toEmbeddedBytes_ok.2 ⟨_, _, Header.embeddedBytes_ok.2
      ⟨show 74 < UInt32.size by decide, rfl⟩, rfl, rfl⟩
  have hparts := innerBytes_cons.2 ⟨_, _, hpart, innerBytes_nil, (List.append_nil _).symm⟩
  refine toBytes_ok.2 ⟨_, _, Header.bytes_ok.2 ⟨show 200 < UInt32.size by decide, rfl⟩,
    payloadBytes_aggregate_ok.2 ⟨show 74 < UInt32.size by decide, _, hparts, rfl⟩, ?_⟩
  have hheader : bondedHeader 200 =
      bytes32 (UInt32.ofNat (bonded [join.withHeader h]).size) ++
        (Header.new .aggregateBonded .mijinTest 1).signatureOctets.bytes ++
        (Header.new .aggregateBonded .mijinTest 1).identityBytes ++ bytes64 0 ++ bytes64 1 := rfl
  rw [hheader, List.flatMap_nil, List.append_nil, List.append_assoc _ (bytes32 74)]
  rfl

theorem ofBytes_bonded {inner : List Transaction} {b : List UInt8}
    (hparts : ∀ part ∈ inner, part.IsPart) (hb : (bonded inner).toBytes = .ok b) :
    ofBytes b = .ok (bonded inner) :=
  ofBytes_ok.2 ⟨wellTyped_and_isCarried.2
    ⟨rfl, Header.new_isNormal _ _ _, rfl, fun a ha => (by cases ha), hparts⟩, hb⟩

theorem anonymousJoin_isPart : anonymousJoin.IsPart where
  type := rfl
  shape := by decide
  header := Header.new_isNormal .joinToDrive .mijinTest 0
  embedded := ⟨rfl, rfl, rfl, rfl⟩
  accounts := by
    intro a ha
    rw [List.mem_singleton.1 ha]
    rfl

theorem ofBytes_emptyBytes : ofBytes emptyBytes = .ok (bonded []) :=
  ofBytes_bonded (fun part hpart => (by cases hpart))
    (toBytes_ok.2 ⟨_, _, Header.bytes_ok.2 ⟨by decide, rfl⟩,
      payloadBytes_aggregate_ok.2 ⟨by decide, [], innerBytes_nil, rfl⟩, rfl⟩)

theorem ofBytes_anonymousBytes : ofBytes anonymousBytes = .ok (bonded [anonymousJoin]) := by
  refine ofBytes_bonded ?_ (bonded_join_toBytes _)
  intro part hpart
  rw [List.mem_singleton.1 hpart]
  exact anonymousJoin_isPart

/-- An aggregate of one join whose header says that it is itself the join. -/
def disguised : Transaction :=
  (bonded [join]).withHeader join.header

/-- Readers take aggregates that constructors refuse, for either of their reasons, and
constructors take an aggregate that says it is none. So there are aggregates, new ones
and such as were read, that are empty, or hold what nobody has signed for, or hold an
aggregate. -/
theorem read_not_admissible :
    ofBytes emptyBytes = .ok (bonded []) ∧
    newBonded 1 [] .mijinTest = .error (.invalid .noInner) ∧
    ofBytes anonymousBytes = .ok (bonded [anonymousJoin]) ∧
    newBonded 1 [anonymousJoin] .mijinTest = .error (.invalid (.innerUnsigned 0)) ∧
    disguised.shape = .aggregate ∧
    newBonded 1 [disguised] .mijinTest = .ok (bonded [disguised]) ∧
    push (bonded [join]) disguised = .ok (bonded [join, disguised]) ∧
    (¬ ∀ tx, IsRead tx → tx.shape = .aggregate → tx.inner ≠ []) ∧
    (¬ ∀ tx, IsRead tx → ∀ part ∈ tx.inner, part.header.signer ≠ none) ∧
    ¬ ∀ tx, IsNew tx → ∀ part ∈ tx.inner, part.shape ≠ .aggregate := by
  have hnew : newBonded 1 [disguised] .mijinTest = .ok (bonded [disguised]) := rfl
  refine ⟨ofBytes_emptyBytes, rfl, ofBytes_anonymousBytes, rfl, rfl, hnew, rfl,
    fun h => ?_, fun h => ?_, fun h => ?_⟩
  · exact h (bonded []) (.bytes ofBytes_emptyBytes) rfl rfl
  · exact h _ (.bytes ofBytes_anonymousBytes) anonymousJoin (List.mem_singleton.2 rfl) rfl
  · exact h _ (.bonded hnew) disguised (List.mem_singleton.2 rfl) rfl

/-- A new aggregate and one that was read, to each of which the join is added; and
one that was read which could not be new. -/
theorem inner_admissible_join :
    ((bonded [join, join]).inner ≠ [] ∧
      ∀ part ∈ (bonded [join, join]).inner, part.Admissible) ∧
    (∃ added, (bonded [join]).inner = (bonded []).inner ++ added ∧
      ∀ part ∈ added, part.Admissible) ∧
    ¬ ∃ made, newCompleted 1 (bonded [anonymousJoin]).inner .mijinTest = .ok made := by
  have hgrown : Grows (bonded [join]) (bonded [join, join]) := bonded_grows join_admissible
  have hgrown' : Grows (bonded []) (bonded [join]) := bonded_grows join_admissible
  obtain ⟨hmade, -⟩ := inner_admissible _ _ hgrown
  obtain ⟨-, hread, -⟩ := inner_admissible _ _ hgrown'
  obtain ⟨-, -, -, hagain⟩ := inner_admissible (bonded [anonymousJoin]) _ .refl
  refine ⟨?_, ?_, fun h => ?_⟩
  · obtain ⟨hinner, hparts⟩ := hmade (bonded_isNew join_admissible)
    exact ⟨hinner, fun part hpart => (hparts part hpart).1⟩
  · obtain ⟨-, added, heq, hadded⟩ := hread (.bytes ofBytes_emptyBytes) rfl
    exact ⟨added, heq, fun part hpart => (hadded part hpart).1⟩
  · obtain ⟨-, hsigned⟩ := (hagain (.bytes ofBytes_anonymousBytes) 1 .mijinTest).1.1 h
    exact hsigned anonymousJoin (List.mem_singleton.2 rfl) rfl

end Transaction

end DriveChain
