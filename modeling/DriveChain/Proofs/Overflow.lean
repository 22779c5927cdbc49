import DriveChain.Proofs.Size
import DriveChain.Transaction.Document

/-!
# Both forms are refused for the same list

Bytes and documents are written by writers of their own, but a count is two bytes
wide in bytes and is kept within two bytes in documents. Both writers go over the
counted lists in one order, that of `Transaction.counted`: within a payload in the
order of its counts, and within an aggregate part by part. So each of them reports
the first list in this order that is too long, and nothing else can go wrong: in
documents nothing ever, in bytes as long as the size of the whole fits its slot.
-/

namespace DriveChain

/-- A list whose count stands in a document, before what is found out later. -/
theorem failure_bind_counted {α : Type} {field : String} {n : Nat} {lists : List (String × Nat)}
    {f : UInt16 → Except TransactionError α} (hf : ∀ count, failure (f count) = firstLong lists) :
    failure (wireCount field n >>= f) = firstLong ((field, n) :: lists) := by
  rw [← failure_counted hf]
  cases wireCount field n <;> rfl

namespace Payload

theorem failure_members (p : Payload) : failure p.members = firstLong p.counted := by
  cases p with
  | driveFileSystem change =>
      exact failure_bind_counted fun _ => failure_bind_counted fun _ => rfl
  | filesDeposit _ _ | driveFilesReward _ | startFileDownload _ _ | endFileDownload _ _ _ =>
      exact failure_bind_counted fun _ => rfl
  | _ => rfl

end Payload

namespace Transaction

mutual

theorem failure_toJson : ∀ tx : Transaction, failure tx.toJson = firstLong tx.counted
  | .single header payload => by
      rw [toJson, counted, ← Payload.failure_members]
      cases payload.members <;> rfl
  | .aggregate header inner cosignatures => by
      rw [toJson, counted, ← failure_toJsonList inner]
      cases toJsonList inner <;> rfl

/-- The documents of parts are made in the order of the parts, up to the first one
that has none. -/
theorem failure_toJsonList :
    ∀ txs : List Transaction, failure (toJsonList txs) = firstLong (countedList txs)
  | [] => by
      rw [toJsonList, countedList]
      rfl
  | tx :: rest => by
      rw [toJsonList, countedList, firstLong_append, ← failure_toJson tx,
        ← failure_toJsonList rest]
      cases tx.toJson with
      | error e => rfl
      | ok value => cases toJsonList rest <;> rfl

end

/-- A transaction whose size four bytes hold has bytes just if it has a document. If
it has neither, both are refused for the same list: the first one that is longer
than two bytes hold. -/
theorem toBytes_error_iff_toJson_error {tx : Transaction} (h : tx.size < UInt32.size) :
    ((∃ b, tx.toBytes = .ok b) ↔ ∃ v, tx.toJson = .ok v) ∧
    (∀ e, tx.toBytes = .error e ↔ tx.toJson = .error e) ∧
    ∀ e, tx.toJson = .error e → ∃ earlier field count later,
      e = .invalid (.manyEntries field count) ∧ 65535 < count ∧
      tx.counted = earlier ++ (field, count) :: later ∧ ∀ l ∈ earlier, l.2 ≤ 65535 := by
  have hbytes := failure_toBytes h
  have hjson := tx.failure_toJson
  refine ⟨?_, fun e => ?_, fun e he => ?_⟩
  · rw [← failure_eq_none, ← failure_eq_none, hbytes, hjson]
  · rw [← failure_eq_some, ← failure_eq_some, hbytes, hjson]
  · rw [← failure_eq_some, hjson, firstLong, Option.map_eq_some_iff] at he
    obtain ⟨⟨field, count⟩, hfirst, rfl⟩ := he
    obtain ⟨hlong, earlier, later, hcounted, hearlier⟩ := List.find?_eq_some_iff_append.1 hfirst
    refine ⟨earlier, field, count, later, rfl, of_decide_eq_true hlong, hcounted,
      fun l hl => ?_⟩
    have hfits := hearlier l hl
    simp only [UInt16.size, Bool.not_eq_true', decide_eq_false_iff_not] at hfits
    omega

/-- An aggregate of two parts with three lists: a file system change that adds and
removes files, and a deposit of files. -/
def overfull (added removed files : Nat) : Transaction :=
  .aggregate (.new .aggregateBonded .mijinTest 1)
    [.single (.new .driveFileSystem .mijin 1)
      (.driveFileSystem {
        drive := .ofKey (.zero 32) .mijin, newRoot := .zero 32, oldRoot := .zero 32,
        added := List.replicate added ⟨.zero 32, 0⟩
        removed := List.replicate removed (.zero 32) }),
     .single (.new .filesDeposit .mijin 1)
      (.filesDeposit (.ofKey (.zero 32) .mijin) (List.replicate files (.zero 32)))] []

theorem size_overfull (added removed files : Nat) :
    (overfull added removed files).size = 344 + 40 * added + 32 * removed + 32 * files := by
  simp only [overfull, size, innerSize, Payload.size, List.length_replicate, Layout.aggregate,
    Layout.driveFileSystem, Layout.sizedFile, Layout.filesDeposit, Layout.file,
    Layout.cosignature, Layout.embeddedReduction, Layout.headerSize, Layout.embeddedHeaderSize,
    List.length_nil]
  omega

theorem counted_overfull (added removed files : Nat) : (overfull added removed files).counted =
    [("addActions", added), ("removeActions", removed), ("files", files)] := by
  simp only [overfull, counted, countedList, Payload.counted, List.length_replicate,
    List.cons_append, List.nil_append]

theorem overfull_refused :
    (overfull 3 65538 65536).toBytes = .error (.invalid (.manyEntries "removeActions" 65538)) ∧
    (overfull 3 65538 65536).toJson = .error (.invalid (.manyEntries "removeActions" 65538)) := by
  have hsize : (overfull 3 65538 65536).size < UInt32.size := by
    rw [size_overfull]
    decide
  have hjson : (overfull 3 65538 65536).toJson =
      .error (.invalid (.manyEntries "removeActions" 65538)) := by
    rw [← failure_eq_some, failure_toJson, counted_overfull]
    rfl
  exact ⟨((toBytes_error_iff_toJson_error hsize).2.1 _).2 hjson, hjson⟩

end Transaction

end DriveChain
