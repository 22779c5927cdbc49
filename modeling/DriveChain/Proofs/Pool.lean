import DriveChain.Page.Pool
import Mathlib.Data.List.Perm.Subperm

/-!
# Every schedule gives the same page

What a run of the workers comes to does not depend on who takes which entry when.
After any schedule the entries that have been taken fall into two parts: those
somebody is at, and those that have been mapped, each of them once. A place is filled
just if its entry is in the second part, and then with what the mapping gives for this
entry, since nobody but the worker at an entry writes to its place.

Every event takes an entry or finishes one, so no run has more than two events for an
entry. And one that is not over can go on: somebody who is busy may be done, or else
nobody is busy and an entry is left to take. So every run can be brought to its end,
and there all entries have been mapped and the places hold what mapping them one by
one gives. The page, or the first failure, is then that of the list of results.
-/

namespace DriveChain

namespace Page

variable {α β ε : Type}

/-! ## The list of results -/

/-- The result with an index is a failure, and all before it are none. -/
def FirstFailure (results : List (Except ε β)) (index : Nat) (cause : ε) : Prop :=
  results[index]? = some (.error cause) ∧
    ∀ earlier < index, ∃ b, results[earlier]? = some (.ok b)

theorem firstFailure_ok {b : β} {results : List (Except ε β)} {index : Nat} {cause : ε} :
    FirstFailure (.ok b :: results) (index + 1) cause ↔ FirstFailure results index cause := by
  unfold FirstFailure
  rw [List.getElem?_cons_succ]
  refine and_congr_right fun _ => ⟨fun h earlier hlt => ?_, fun h earlier hlt => ?_⟩
  · exact h (earlier + 1) (by omega)
  · cases earlier with
    | zero => exact ⟨b, rfl⟩
    | succ earlier => exact h earlier (by omega)

theorem collect_ok {index : Nat} {results : List (Except ε β)} {bs : List β} :
    collect index results = .ok bs ↔ results = bs.map .ok := by
  induction results generalizing index bs with
  | nil => cases bs <;> simp [collect]
  | cons result rest ih =>
      cases result with
      | error cause => cases bs <;> simp [collect]
      | ok b =>
          simp only [collect]
          cases hrest : collect (index + 1) rest with
          | error e =>
              refine ⟨fun h => (by cases h), fun h => ?_⟩
              cases bs with
              | nil => cases h
              | cons b' bs =>
                  obtain ⟨-, h⟩ := List.cons.inj h
                  rw [ih.2 h] at hrest
                  cases hrest
          | ok bs' =>
              rw [ih] at hrest
              subst hrest
              cases bs with
              | nil => simp
              | cons b' bs =>
                  simp only [Except.ok.injEq, List.cons.injEq, List.map_cons]
                  rw [List.map_inj_right fun _ _ => Except.ok.inj]

theorem collect_error {start : Nat} {results : List (Except ε β)} {e : PageError ε} :
    collect start results = .error e ↔
      ∃ index, e.index = start + index ∧ FirstFailure results index e.cause := by
  induction results generalizing start with
  | nil => simp [collect, FirstFailure]
  | cons result rest ih =>
      cases result with
      | error cause =>
          simp only [collect]
          refine ⟨fun h => ?_, fun h => ?_⟩
          · cases h
            exact ⟨0, rfl, rfl, fun earlier hlt => absurd hlt (Nat.not_lt_zero _)⟩
          · obtain ⟨index, hindex, hcause, hbefore⟩ := h
            cases index with
            | zero =>
                cases e
                cases hindex
                cases hcause
                rfl
            | succ index =>
                obtain ⟨b, hb⟩ := hbefore 0 (Nat.succ_pos index)
                cases hb
      | ok b =>
          have hrest : collect start (.ok b :: rest) = .error e ↔
              collect (start + 1) rest = .error e := by
            simp only [collect]
            cases collect (start + 1) rest <;> simp
          rw [hrest, ih]
          refine ⟨fun h => ?_, fun h => ?_⟩
          · obtain ⟨index, hindex, hfirst⟩ := h
            exact ⟨index + 1, by omega, firstFailure_ok.2 hfirst⟩
          · obtain ⟨index, hindex, hfirst⟩ := h
            cases index with
            | zero => cases hfirst.1
            | succ index => exact ⟨index, by omega, firstFailure_ok.1 hfirst⟩

theorem map_ok {f : α → Except ε β} {entries : List α} {bs : List β} :
    map f entries = .ok bs ↔ entries.map f = bs.map .ok :=
  collect_ok

theorem map_error {f : α → Except ε β} {entries : List α} {e : PageError ε} :
    map f entries = .error e ↔ FirstFailure (entries.map f) e.index e.cause := by
  unfold map
  rw [collect_error]
  simp only [Nat.zero_add]
  exact exists_eq_left'

theorem workers_pos (wanted : Nat) : 0 < workers wanted :=
  Nat.le_max_left ..

namespace Pool

/-! ## Schedules -/

/-- The entry that is mapped. -/
def Event.mapped? : Event → Option Nat
  | .take _ _ => none
  | .done _ entry => some entry

/-- The entries that are mapped in a schedule, one after the other. -/
def mapped (schedule : List Event) : List Nat :=
  schedule.filterMap Event.mapped?

variable {f : α → Except ε β} {entries : List α} {size : Nat} {p q r : Pool ε β}

theorem Follows.append {schedule more : List Event} (hfirst : Follows f entries size p schedule q)
    (hmore : Follows f entries size q more r) :
    Follows f entries size p (schedule ++ more) r := by
  induction hmore with
  | nil =>
      rw [List.append_nil]
      exact hfirst
  | snoc follows allows ih =>
      rw [← List.append_assoc]
      exact .snoc ih allows

/-! ## What holds after every schedule -/

/-- A pool in which just the given entries have been mapped. -/
structure Sound (f : α → Except ε β) (entries : List α) (p : Pool ε β) (mapped : List Nat) :
    Prop where
  there : ∀ entry ∈ p.taken, entry < entries.length
  once : p.taken.Nodup
  split : (p.busy.map Prod.snd ++ mapped).Perm p.taken
  size : p.places.length = entries.length
  places : ∀ (entry : Nat) (a : α), entries[entry]? = some a →
    p.places[entry]? = some (if entry ∈ mapped then some (f a) else none)

theorem sound_idle : Sound f entries (idle entries) [] where
  there entry h := (by cases h)
  once := List.nodup_nil
  split := .nil
  size := List.length_map ..
  places entry a h := by
    show (entries.map fun _ => none)[entry]? = some none
    rw [List.getElem?_map, h, Option.map_some]

variable {finished : List Nat} {schedule : List Event}

namespace Sound

theorem take (h : Sound f entries p finished) {worker entry : Nat}
    (there : entry < entries.length) (fresh : entry ∉ p.taken) :
    Sound f entries (p.after f entries (.take worker entry)) finished where
  there := List.forall_mem_cons.2 ⟨there, h.there⟩
  once := List.nodup_cons.2 ⟨fresh, h.once⟩
  split := h.split.cons entry
  size := h.size
  places := h.places

theorem done (h : Sound f entries p finished) {worker entry : Nat}
    (busy : (worker, entry) ∈ p.busy) :
    Sound f entries (p.after f entries (.done worker entry)) (finished ++ [entry]) where
  there := h.there
  once := h.once
  split := by
    have hbusy : (p.busy.map Prod.snd).Perm
        (entry :: (p.busy.erase (worker, entry)).map Prod.snd) :=
      (List.perm_cons_erase busy).map Prod.snd
    refine List.Perm.trans ?_ h.split
    rw [← List.append_assoc]
    refine (List.perm_append_singleton entry _).trans ?_
    exact (hbusy.append_right finished).symm
  size := (List.length_set ..).trans h.size
  places other a hother := by
    simp only [after, List.mem_append, List.mem_singleton]
    by_cases heq : other = entry
    · subst heq
      have hlt : other < p.places.length :=
        h.size ▸ (List.getElem?_eq_some_iff.1 hother).1
      rw [List.getElem?_set_self hlt, hother, if_pos (Or.inr rfl), Option.map_some]
    · rw [List.getElem?_set_ne (Ne.symm heq), h.places other a hother]
      simp only [heq, or_false]

end Sound

/-- What one event preserves. -/
theorem sound_after (h : Sound f entries p finished) {event : Event}
    (hallows : p.Allows entries size event) :
    Sound f entries (p.after f entries event) (finished ++ mapped [event]) := by
  cases event with
  | take worker entry =>
      obtain ⟨-, -, there, fresh⟩ := hallows
      show Sound f entries _ (finished ++ [])
      rw [List.append_nil]
      exact h.take there fresh
  | done worker entry => exact h.done hallows.1

/-- What a whole run preserves. -/
theorem sound_of_follows (h : Follows f entries size (idle entries) schedule p) :
    Sound f entries p (mapped schedule) := by
  induction h with
  | nil => exact sound_idle
  | snoc follows allows ih =>
      unfold mapped
      rw [List.filterMap_append]
      exact sound_after ih allows

/-! ## The end of a run -/

theorem length_of_follows (h : Follows f entries size (idle entries) schedule p) :
    schedule.length = p.taken.length + (mapped schedule).length := by
  induction h with
  | nil => rfl
  | @snoc q schedule event follows allows ih =>
      unfold mapped at ih ⊢
      rw [List.filterMap_append, List.length_append, List.length_append, ih]
      cases event with
      | take worker entry => exact Nat.add_right_comm ..
      | done worker entry => rfl

theorem Sound.length_taken_le (h : Sound f entries p finished) :
    p.taken.length ≤ entries.length := by
  have hsub : p.taken ⊆ List.range entries.length :=
    fun entry hentry => List.mem_range.2 (h.there entry hentry)
  have hle := (List.subperm_of_subset h.once hsub).length_le
  rwa [List.length_range] at hle

/-- No run has more than two events for an entry. -/
theorem length_le_of_follows (h : Follows f entries size (idle entries) schedule p) :
    schedule.length ≤ 2 * entries.length := by
  have hsound := sound_of_follows h
  have htaken := hsound.length_taken_le
  have hmapped : (mapped schedule).length ≤ p.taken.length := by
    rw [← hsound.split.length_eq, List.length_append]
    exact Nat.le_add_left ..
  rw [length_of_follows h]
  omega

/-- Something can happen in every pool that is not over. -/
theorem Sound.exists_allows (h : Sound f entries p finished) (hsize : 0 < size)
    (hover : ¬p.IsOver) : ∃ event, p.Allows entries size event := by
  cases hbusy : p.busy with
  | cons pair rest =>
      obtain ⟨worker, entry⟩ := pair
      have hmem : (worker, entry) ∈ p.busy := by rw [hbusy]; exact List.mem_cons_self
      have htaken : entry ∈ p.taken :=
        h.split.subset (List.mem_append_left _ (List.mem_map_of_mem hmem))
      exact ⟨.done worker entry, hmem, h.there entry htaken⟩
  | nil =>
      have hleft : ∃ entry < p.places.length, entry ∉ p.taken := by
        by_contra hnone
        push Not at hnone
        exact hover ⟨hnone, hbusy⟩
      obtain ⟨entry, hlt, hfresh⟩ := hleft
      refine ⟨.take 0 entry, hsize, fun other hother => ?_, h.size ▸ hlt, hfresh⟩
      rw [hbusy] at hother
      cases hother

/-- Every run can go on until it is over. -/
theorem exists_over (hsize : 0 < size)
    (h : Follows f entries size (idle entries) schedule p) :
    ∃ more q, Follows f entries size p more q ∧ q.IsOver := by
  -- the number of events that are left to any run with this schedule falls with each of them
  induction hleft : 2 * entries.length - schedule.length using Nat.strongRecOn
    generalizing schedule p with
  | _ left ih =>
      by_cases hover : p.IsOver
      · exact ⟨[], p, .nil p, hover⟩
      · obtain ⟨event, hallows⟩ := (sound_of_follows h).exists_allows hsize hover
        have hnext := Follows.snoc h hallows
        have hlength := length_le_of_follows hnext
        rw [List.length_append, List.length_singleton] at hlength
        have hless : 2 * entries.length - (schedule ++ [event]).length < left := by
          rw [List.length_append, List.length_singleton]
          omega
        obtain ⟨more, q, hmore, hq⟩ := ih _ hless hnext rfl
        exact ⟨[] ++ [event] ++ more, q, .append (.snoc (.nil p) hallows) hmore, hq⟩

namespace Sound

/-- When a run is over, all entries have been mapped, each of them once. -/
theorem mapped_perm (h : Sound f entries p finished) (hover : p.IsOver) :
    finished.Perm (List.range entries.length) := by
  obtain ⟨hall, hbusy⟩ := hover
  have hsplit := h.split
  rw [hbusy, List.map_nil, List.nil_append] at hsplit
  refine hsplit.trans ((List.perm_ext_iff_of_nodup h.once List.nodup_range).2 fun entry => ?_)
  rw [List.mem_range]
  exact ⟨h.there entry, fun hlt => hall entry (h.size ▸ hlt)⟩

/-- When a run is over, its places hold what mapping the entries one by one gives. -/
theorem places_eq (h : Sound f entries p finished) (hover : p.IsOver) :
    p.places = entries.map fun a => some (f a) := by
  have hperm := h.mapped_perm hover
  refine List.ext_getElem? fun entry => ?_
  rw [List.getElem?_map]
  cases hentry : entries[entry]? with
  | none =>
      rw [Option.map_none, List.getElem?_eq_none_iff, h.size]
      exact List.getElem?_eq_none_iff.1 hentry
  | some a =>
      have hlt := (List.getElem?_eq_some_iff.1 hentry).1
      rw [h.places entry a hentry, if_pos (hperm.mem_iff.2 (List.mem_range.2 hlt)), Option.map_some]

theorem result_eq (h : Sound f entries p finished) (hover : p.IsOver) :
    p.result = map f entries := by
  unfold result map
  rw [h.places_eq hover, List.filterMap_map]
  exact congrArg (collect 0) (congrFun List.filterMap_eq_map entries)

end Sound

/-- So many workers map each entry once, come to an end however they go about it, and make the
answer of what they have then. -/
structure Settles (f : α → Except ε β) (entries : List α) (size : Nat)
    (answer : Except (PageError ε) (List β)) : Prop where
  bounded : ∀ {schedule : List Event} {p : Pool ε β},
    Follows f entries size (idle entries) schedule p → schedule.length ≤ 2 * entries.length
  ends : ∀ {schedule : List Event} {p : Pool ε β},
    Follows f entries size (idle entries) schedule p →
      ∃ more q, Follows f entries size p more q ∧ q.IsOver
  once : ∀ {schedule : List Event} {p : Pool ε β},
    Follows f entries size (idle entries) schedule p → p.IsOver →
      (mapped schedule).Perm (List.range entries.length)
  result : ∀ {schedule : List Event} {p : Pool ε β},
    Follows f entries size (idle entries) schedule p → p.IsOver → p.result = answer

theorem settles (f : α → Except ε β) (entries : List α) (hsize : 0 < size) :
    Settles f entries size (map f entries) where
  bounded := length_le_of_follows
  ends := exists_over hsize
  once h hover := (sound_of_follows h).mapped_perm hover
  result h hover := (sound_of_follows h).result_eq hover

end Pool

end Page

end DriveChain
