import DriveChain.Listener

/-!
# Who is told, and who is told no more

Nothing in a listener says whom a message was told to: a call leaves behind no more than
the state the callback made of it. So a *recorded* listener is looked at beside the plain
one. It writes down every call that is made, in order, with the answer and the state
after it. A host reads nothing of the record, so recording changes nothing.

The callbacks of an address are read once, before the first of them is told, while the
register loses callbacks under the loop. What holds when some of them have been told:
whoever said to be done and could be taken off is gone from the address, wherever in the
list it stood, and all others are where they were. A callback that is listed twice is
told twice all the same, and it is gone if one of the two calls let go of it.

Handling a message takes callbacks off and never puts one on. So the callbacks of an
address after some messages are among those before, which keeps one that is gone from
being told of any later message.
-/

namespace DriveChain

/-! ## The register -/

namespace Registry

variable {κ : Type} [DecidableEq κ] {r : Registry κ} {address other : Address} {callback : κ}

@[simp] theorem callbacks_remove :
    (r.remove address callback).callbacks address =
      (r.callbacks address).filter fun k => k ≠ callback := by
  unfold remove callbacks
  rw [List.filter_map, List.filter_filter, List.filter_filter]
  congr 1
  refine List.filter_congr fun entry _ => ?_
  by_cases haddress : entry.1 = address <;> simp [Prod.ext_iff, haddress]

theorem callbacks_remove_of_ne (h : other ≠ address) :
    (r.remove address callback).callbacks other = r.callbacks other := by
  unfold remove callbacks
  rw [List.filter_filter]
  congr 1
  refine List.filter_congr fun entry _ => ?_
  by_cases hother : entry.1 = other <;> simp [Prod.ext_iff, hother, h]

end Registry

/-! ## Recording -/

/-- A callback that was told of a transaction, its answer, and the state after the call. -/
structure Call (κ σ : Type) where
  callback : κ
  transaction : Transaction
  done : Bool
  after : σ

namespace Call

variable {κ σ : Type}

/-- The callback is done with listening, and it can be taken off the address. -/
def LetGo (host : Host κ σ) (address : Address) (c : Call κ σ) : Prop :=
  c.done = true ∧ host.refuses address c.callback c.after = none

instance (host : Host κ σ) (address : Address) : DecidablePred (LetGo host address) := fun c =>
  inferInstanceAs (Decidable (c.done = true ∧ host.refuses address c.callback c.after = none))

/-- What there is to report if the callback is done with listening and cannot be taken off. -/
def complaint (host : Host κ σ) (address : Address) (c : Call κ σ) : Option ListenerError :=
  if c.done then (host.refuses address c.callback c.after).map (.removal address) else none

end Call

/-- The host with a record of the calls that it never reads. -/
def Host.recorded {κ σ : Type} (host : Host κ σ) : Host κ (σ × List (Call κ σ)) where
  call callback tx state :=
    let (done, after) := host.call callback tx state.1
    (done, after, state.2 ++ [⟨callback, tx, done, after⟩])
  refuses address callback state := host.refuses address callback state.1

/-- A message that concerns an address. -/
structure Message where
  address : Address
  text : List UInt8

namespace Listener

variable {κ σ : Type}

/-- A listener with the calls that have been made. -/
def withRecord (l : Listener κ σ) (calls : List (Call κ σ)) :
    Listener κ (σ × List (Call κ σ)) :=
  ⟨l.registry, (l.state, calls), l.reports⟩

variable [DecidableEq κ] {host : Host κ σ} {l : Listener κ σ} {address other : Address}
  {tx : Transaction} {text : List UInt8}

/-- The calls that are made when a message is handled. -/
def calls (host : Host κ σ) (l : Listener κ σ) (m : Message) : List (Call κ σ) :=
  (handle host.recorded (l.withRecord []) m.address m.text).2.state.2

/-- What becomes of a listener that handles messages one after the other. -/
def run (host : Host κ σ) (l : Listener κ σ) (messages : List Message) : Listener κ σ :=
  messages.foldl (fun l m => (handle host l m.address m.text).2) l

theorem run_append {before after : List Message} :
    run host l (before ++ after) = run host (run host l before) after :=
  List.foldl_append

/-! ## One callback -/

/-- The call that is made when a callback is told of a transaction. -/
def tell (host : Host κ σ) (tx : Transaction) (l : Listener κ σ) (callback : κ) : Call κ σ :=
  ⟨callback, tx, (host.call callback tx l.state).1, (host.call callback tx l.state).2⟩

theorem notify_withRecord {earlier : List (Call κ σ)} {callback : κ} :
    notify host.recorded address tx (l.withRecord earlier) callback =
      (notify host address tx l callback).withRecord (earlier ++ [tell host tx l callback]) := by
  unfold notify Host.recorded withRecord tell report
  dsimp only
  split
  · split <;> rfl
  · rfl

/-- A callback that lets go is taken off, and else the register stays as it is. -/
theorem registry_notify {callback : κ} :
    (notify host address tx l callback).registry =
      if (tell host tx l callback).LetGo host address then l.registry.remove address callback
      else l.registry := by
  unfold notify tell Call.LetGo report
  obtain ⟨done, after⟩ := host.call callback tx l.state
  cases done with
  | false => simp
  | true =>
      obtain hgo | ⟨reason, hstays⟩ := (host.refuses address callback after).eq_none_or_eq_some
      · simp [hgo]
      · simp [hstays]

theorem reports_notify {callback : κ} :
    (notify host address tx l callback).reports =
      l.reports ++ ((tell host tx l callback).complaint host address).toList := by
  unfold notify tell Call.complaint report
  obtain ⟨done, after⟩ := host.call callback tx l.state
  cases done with
  | false => simp
  | true =>
      obtain hgo | ⟨reason, hstays⟩ := (host.refuses address callback after).eq_none_or_eq_some
      · simp [hgo]
      · simp [hstays]

/-! ## All callbacks of an address -/

/-- The calls that are made when callbacks are told of a transaction one after the other. -/
def tellAll (host : Host κ σ) (address : Address) (tx : Transaction) :
    Listener κ σ → List κ → List (Call κ σ)
  | _, [] => []
  | l, callback :: rest =>
    tell host tx l callback :: tellAll host address tx (notify host address tx l callback) rest

/-- What becomes of a listener whose callbacks are told of a transaction one after the other. -/
def notifyAll (host : Host κ σ) (address : Address) (tx : Transaction) (l : Listener κ σ)
    (told : List κ) : Listener κ σ :=
  told.foldl (notify host address tx) l

theorem notifyAll_cons {callback : κ} {rest : List κ} :
    notifyAll host address tx l (callback :: rest) =
      notifyAll host address tx (notify host address tx l callback) rest := rfl

theorem notifyAll_withRecord {earlier : List (Call κ σ)} {told : List κ} :
    notifyAll host.recorded address tx (l.withRecord earlier) told =
      (notifyAll host address tx l told).withRecord
        (earlier ++ tellAll host address tx l told) := by
  induction told generalizing l earlier with
  | nil => rw [tellAll, List.append_nil]; rfl
  | cons callback rest ih =>
      rw [notifyAll_cons, notify_withRecord, ih, notifyAll_cons, tellAll, List.append_assoc,
        List.singleton_append]

theorem callbacks_tellAll {told : List κ} :
    (tellAll host address tx l told).map Call.callback = told := by
  induction told generalizing l with
  | nil => rfl
  | cons callback rest ih => rw [tellAll, List.map_cons, ih]; rfl

theorem transaction_of_mem_tellAll {told : List κ} {c : Call κ σ}
    (hc : c ∈ tellAll host address tx l told) : c.transaction = tx := by
  induction told generalizing l with
  | nil => cases hc
  | cons callback rest ih =>
      rw [tellAll, List.mem_cons] at hc
      obtain rfl | hc := hc
      · rfl
      · exact ih hc

theorem reports_notifyAll {told : List κ} :
    (notifyAll host address tx l told).reports =
      l.reports ++ (tellAll host address tx l told).filterMap (Call.complaint host address) := by
  induction told generalizing l with
  | nil => exact (List.append_nil _).symm
  | cons callback rest ih =>
      rw [notifyAll_cons, ih, reports_notify, tellAll, List.append_assoc, List.filterMap_cons]
      cases (tell host tx l callback).complaint host address <;> rfl

/-- The callbacks that were let go. -/
def gone (host : Host κ σ) (address : Address) (calls : List (Call κ σ)) : List κ :=
  (calls.filter fun c => c.LetGo host address).map Call.callback

/-- A callback outlasts the calls if it outlasts the first and then those after it. -/
theorem filter_gone_cons {c : Call κ σ} {rest : List (Call κ σ)} {ks : List κ} :
    (ks.filter fun k => k ∉ gone host address (c :: rest)) =
      (if c.LetGo host address then ks.filter fun k => k ≠ c.callback else ks).filter
        fun k => k ∉ gone host address rest := by
  unfold gone
  rw [List.filter_cons]
  by_cases hgo : c.LetGo host address
  · simp only [hgo, decide_true, if_true, List.map_cons, List.filter_filter]
    refine List.filter_congr fun k _ => ?_
    rw [← Bool.decide_and, decide_eq_decide, List.mem_cons, not_or, and_comm]
  · simp only [hgo, decide_false, Bool.false_eq_true, if_false]

theorem callbacks_notifyAll {told : List κ} :
    (notifyAll host address tx l told).registry.callbacks address =
      (l.registry.callbacks address).filter
        fun k => k ∉ gone host address (tellAll host address tx l told) := by
  induction told generalizing l with
  | nil => exact (List.filter_eq_self.2 fun _ _ => rfl).symm
  | cons callback rest ih =>
      rw [notifyAll_cons, ih, registry_notify, apply_ite (Registry.callbacks · address),
        Registry.callbacks_remove, tellAll, filter_gone_cons]
      rfl

/-- A host where the callback 7 is always done, but can't be taken off by the first call that is made. -/
def stubborn : Host Nat Nat :=
  ⟨fun k _ told => (k = 7, told + 1), fun _ _ told => if told = 1 then some "busy" else none⟩

/-- An address with a callback that is registered twice. -/
def crowded : Listener Nat Nat :=
  ⟨⟨[(⟨.mijin, default⟩, 7), (⟨.mijin, default⟩, 8), (⟨.mijin, default⟩, 7)]⟩, 0, []⟩

/-- The callback is done both times, and the second time it goes from both places. -/
example (tx : Transaction) :
    (notifyAll stubborn ⟨.mijin, default⟩ tx crowded [7, 8, 7]).registry.entries =
      [(⟨.mijin, default⟩, 8)] := by
  rfl

theorem callbacks_notifyAll_of_ne {told : List κ} (h : other ≠ address) :
    (notifyAll host address tx l told).registry.callbacks other =
      l.registry.callbacks other := by
  induction told generalizing l with
  | nil => rfl
  | cons callback rest ih =>
      rw [notifyAll_cons, ih, registry_notify, apply_ite (Registry.callbacks · other),
        Registry.callbacks_remove_of_ne h, ite_self]

/-! ## One message -/

theorem handle_of_error {e : TransactionError} (h : Transaction.ofText text = .error e) :
    handle host l address text = (true, l.report (.mapping e)) := by
  unfold handle
  rw [h]

theorem handle_of_ok (h : Transaction.ofText text = .ok tx) :
    handle host l address text =
      ((l.registry.callbacks address).isEmpty ||
          !((notifyAll host address tx l (l.registry.callbacks address)).registry.callbacks
            address).isEmpty,
        notifyAll host address tx l (l.registry.callbacks address)) := by
  unfold handle notifyAll
  rw [h]
  dsimp only
  split
  case isTrue hempty =>
    rw [hempty, List.isEmpty_iff.1 hempty]
    rfl
  case isFalse hempty =>
    rw [eq_false_of_ne_true hempty]
    rfl

theorem calls_of_error {m : Message} {e : TransactionError}
    (h : Transaction.ofText m.text = .error e) : calls host l m = [] := by
  unfold calls
  rw [handle_of_error h]
  rfl

theorem calls_of_ok {m : Message} (h : Transaction.ofText m.text = .ok tx) :
    calls host l m = tellAll host m.address tx l (l.registry.callbacks m.address) := by
  unfold calls
  rw [handle_of_ok h]
  dsimp only
  rw [notifyAll_withRecord]
  rfl

/-- Recording changes neither the answer nor what becomes of the listener. -/
theorem handle_withRecord {m : Message} :
    handle host.recorded (l.withRecord []) m.address m.text =
      ((handle host l m.address m.text).1,
        (handle host l m.address m.text).2.withRecord (calls host l m)) := by
  cases h : Transaction.ofText m.text with
  | error e =>
      rw [calls_of_error h, handle_of_error h, handle_of_error h]
      rfl
  | ok tx =>
      rw [calls_of_ok h, handle_of_ok h, handle_of_ok h]
      simp only [notifyAll_withRecord, List.nil_append]
      rfl

theorem mem_callbacks_of_mem_calls {m : Message} {c : Call κ σ} (hc : c ∈ calls host l m) :
    c.callback ∈ l.registry.callbacks m.address := by
  cases h : Transaction.ofText m.text with
  | error e => rw [calls_of_error h] at hc; cases hc
  | ok tx =>
      rw [calls_of_ok h] at hc
      have hmem := List.mem_map_of_mem (f := Call.callback) hc
      rwa [callbacks_tellAll] at hmem

theorem mem_callbacks_of_handle {callback : κ}
    (hk : callback ∈ (handle host l address text).2.registry.callbacks other) :
    callback ∈ l.registry.callbacks other := by
  cases h : Transaction.ofText text with
  | error e => rwa [handle_of_error h] at hk
  | ok tx =>
      rw [handle_of_ok h] at hk
      by_cases hother : other = address
      · subst hother
        rw [callbacks_notifyAll] at hk
        exact (List.mem_filter.1 hk).1
      · rwa [callbacks_notifyAll_of_ne hother] at hk

/-- No callback comes to an address while messages are handled. -/
theorem mem_callbacks_of_run {messages : List Message} {callback : κ}
    (hk : callback ∈ (run host l messages).registry.callbacks other) :
    callback ∈ l.registry.callbacks other := by
  induction messages generalizing l with
  | nil => exact hk
  | cons m rest ih => exact mem_callbacks_of_handle (ih hk)

/-! ## One message of a run -/

/-- What handling a message comes to whose transaction is told to the callbacks of its address. -/
structure Dispatched (host : Host κ σ) (address : Address) (tx : Transaction)
    (l : Listener κ σ) (calls : List (Call κ σ)) (answer : Bool) (l' : Listener κ σ) : Prop where
  /-- All of them are told, in order, and each as often as it is registered. -/
  told : calls.map Call.callback = l.registry.callbacks address
  transaction : ∀ c ∈ calls, c.transaction = tx
  /-- Those that let go are taken off this address. -/
  callbacks : l'.registry.callbacks address =
    (l.registry.callbacks address).filter fun k => k ∉ gone host address calls
  others : ∀ other, other ≠ address → l'.registry.callbacks other = l.registry.callbacks other
  /-- Those that cannot be taken off are reported, in order. -/
  reports : l'.reports = l.reports ++ calls.filterMap (Call.complaint host address)
  /-- The listening ends with the last callback that is taken off. -/
  ends : answer = false ↔
    l.registry.callbacks address ≠ [] ∧ l'.registry.callbacks address = []

theorem dispatched_of_ok {m : Message} (h : Transaction.ofText m.text = .ok tx) :
    Dispatched host m.address tx l (calls host l m) (handle host l m.address m.text).1
      (handle host l m.address m.text).2 := by
  rw [calls_of_ok h, handle_of_ok h]
  exact
    { told := callbacks_tellAll
      transaction := fun _ => transaction_of_mem_tellAll
      callbacks := callbacks_notifyAll
      others := fun _ => callbacks_notifyAll_of_ne
      reports := reports_notifyAll
      ends := by simp only [Bool.or_eq_false_iff, Bool.not_eq_false', List.isEmpty_iff,
        List.isEmpty_eq_false_iff] }

/-- Once a call let go of a callback, the callback is not told of a message for the address any
more. -/
theorem not_told_again {m next : Message} {c : Call κ σ} (hc : c ∈ calls host l m)
    (hgo : c.LetGo host m.address) {between : List Message} (hnext : next.address = m.address)
    {later : Call κ σ} (hlater : later ∈ calls host (run host l (m :: between)) next) :
    later.callback ≠ c.callback := by
  intro hsame
  cases h : Transaction.ofText m.text with
  | error e => rw [calls_of_error h] at hc; cases hc
  | ok tx =>
      have htold : later.callback ∈
          (run host l (m :: between)).registry.callbacks m.address :=
        hnext ▸ mem_callbacks_of_mem_calls hlater
      have hstill : later.callback ∈
          (handle host l m.address m.text).2.registry.callbacks m.address :=
        mem_callbacks_of_run htold
      rw [(dispatched_of_ok h).callbacks, List.mem_filter, decide_eq_true_iff, hsame] at hstill
      exact hstill.2 (List.mem_map_of_mem (List.mem_filter.2 ⟨hc, decide_eq_true hgo⟩))

/-- What a message comes to wherever it stands in a run. The calls are those of the recorded
listener, which is the plain one in all else. -/
theorem handle_in_run (host : Host κ σ) (l : Listener κ σ) (before : List Message) (m : Message) :
    ∃ answer,
      handle host (run host l before) m.address m.text =
        (answer, run host l (before ++ [m])) ∧
      handle host.recorded ((run host l before).withRecord []) m.address m.text =
        (answer, (run host l (before ++ [m])).withRecord (calls host (run host l before) m)) ∧
      (match Transaction.ofText m.text with
        | .error e =>
          answer = true ∧ calls host (run host l before) m = [] ∧
            run host l (before ++ [m]) = (run host l before).report (.mapping e)
        | .ok tx =>
          Dispatched host m.address tx (run host l before) (calls host (run host l before) m)
            answer (run host l (before ++ [m]))) ∧
      ∀ c ∈ calls host (run host l before) m, c.LetGo host m.address →
        ∀ between next, next.address = m.address →
          ∀ later ∈ calls host (run host l (before ++ m :: between)) next,
            later.callback ≠ c.callback := by
  have hrun : run host l (before ++ [m]) =
      (handle host (run host l before) m.address m.text).2 := run_append
  rw [hrun]
  refine ⟨(handle host (run host l before) m.address m.text).1, rfl, handle_withRecord, ?_, ?_⟩
  · cases h : Transaction.ofText m.text with
    | error e =>
        rw [handle_of_error h]
        exact ⟨rfl, calls_of_error h, rfl⟩
    | ok tx => exact dispatched_of_ok h
  · intro c hc hgo between next hnext later hlater
    rw [run_append] at hlater
    exact not_told_again hc hgo hnext hlater

/-- A message about the end of a verification in which nobody failed. -/
def brief : Message where
  address := ⟨.mijin, default⟩
  text := ("\x7b\"transaction\":\x7b\"deadline\":[0,0],\"maxFee\":[0,0],\"type\":18522,".toList ++
    "\"verificationFailures\":[],\"version\":2415919105\x7d\x7d".toList).map
      fun c => UInt8.ofNat c.toNat

theorem ofText_brief : ∃ tx, Transaction.ofText brief.text = .ok tx := by
  have hread : (Transaction.ofText brief.text).toOption.isSome = true := by decide +kernel
  cases h : Transaction.ofText brief.text with
  | error e =>
      rw [h] at hread
      cases hread
  | ok tx => exact ⟨tx, rfl⟩

/-- After an empty text, the message is told to the two callbacks of the address. One of them is done
and goes, with a complaint about its first call, and is not told of the same message again. -/
theorem handle_in_run_brief : ∃ l, run stubborn crowded [⟨brief.address, []⟩] = l ∧
    (calls stubborn l brief).map Call.callback = [7, 8, 7] ∧
    (handle stubborn l brief.address brief.text).1 = true ∧
    (run stubborn l [brief]).registry.callbacks brief.address = [8] ∧
    (run stubborn l [brief]).reports = l.reports ++ [.removal brief.address "busy"] ∧
    ∀ later ∈ calls stubborn (run stubborn l [brief]) brief, later.callback ≠ 7 := by
  obtain ⟨e, he⟩ : ∃ e, Transaction.ofText [] = .error e := ⟨_, rfl⟩
  have hrun : run stubborn crowded [⟨brief.address, []⟩] = crowded.report (.mapping e) := by
    unfold run
    rw [List.foldl_cons, handle_of_error he]
    rfl
  obtain ⟨tx, htx⟩ := ofText_brief
  have hstands := handle_in_run stubborn crowded [⟨brief.address, []⟩] brief
  simp only [run_append, hrun, htx] at hstands
  obtain ⟨answer, hhandle, -, hmessage, hagain⟩ := hstands
  generalize hl : crowded.report (.mapping e) = l at *
  have hregistered : l.registry.callbacks brief.address = [7, 8, 7] := by
    rw [← hl]
    rfl
  have hcalls : calls stubborn l brief =
      [⟨7, tx, true, 1⟩, ⟨8, tx, false, 2⟩, ⟨7, tx, true, 3⟩] := by
    rw [calls_of_ok htx, hregistered, ← hl]
    rfl
  have hleft : (run stubborn l [brief]).registry.callbacks brief.address = [8] := by
    rw [hmessage.callbacks, hregistered, hcalls]
    rfl
  refine ⟨l, hrun, hmessage.told.trans hregistered, ?_, hleft, ?_, ?_⟩
  · rw [hhandle]
    refine eq_true_of_ne_false fun hends => ?_
    have hnone := (hmessage.ends.1 hends).2
    rw [hleft] at hnone
    cases hnone
  · rw [hmessage.reports, hcalls]
    rfl
  · refine hagain ⟨7, tx, true, 3⟩ ?_ ⟨rfl, rfl⟩ [] brief rfl
    rw [hcalls]
    exact List.mem_of_mem_getLast? rfl

end Listener

end DriveChain
