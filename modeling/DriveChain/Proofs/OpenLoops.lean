import DriveChain.Proofs.AggregateBytes
import DriveChain.Proofs.ReaderFaults

/-!
# Loops that run until the bytes end

Three loops of the reader have no count: the parts of an aggregate, its cosignatures
and the failures of a verification are read for as long as bytes are left. Such a loop
goes round by round, and where its rounds may lead is said here without any limit on
their number. That it ends is then a fact about one round, namely that a value is
never taken from fewer than so many bytes, whatever size the bytes announce. The limit
that the loop is written with is never what ends it.

A failure and a part begin with the number of their bytes. If the number is too small
or too large no value is given, so one that is given takes the bytes that were
announced and no fewer than its fixed fields. Cosignatures announce nothing, but it has
been seen to that their bytes come out even, and nothing else can be wrong with them.
-/

namespace DriveChain

variable {α : Type}

namespace Reader

/-! ## Rounds -/

/-- Rounds of a loop that goes on while bytes are left: the values they give and the
cursors between which they run. -/
inductive Rounds (reader : Reader α) : Cursor → List α → Cursor → Prop
  | none (c : Cursor) : Rounds reader c [] c
  | more {c c' c'' : Cursor} {a : α} {as : List α} (left : c.rest ≠ [])
      (round : reader c = .ok a c') (rest : Rounds reader c' as c'') :
      Rounds reader c (a :: as) c''

/-- Every value is taken from so many bytes or more. -/
def Takes (reader : Reader α) (least : Nat) : Prop :=
  ∀ c a c', reader c = .ok a c' → least + c'.remaining ≤ c.remaining

variable {reader : Reader α} {least : Nat}

/-- Rounds use up the bytes. -/
theorem Rounds.remaining_le (htakes : reader.Takes least) {c c' : Cursor} {as : List α}
    (h : Rounds reader c as c') : least * as.length + c'.remaining ≤ c.remaining := by
  induction h with
  | none c => simp
  | more _ hround _ ih =>
      have htaken := htakes _ _ _ hround
      rw [List.length_cons, Nat.mul_succ]
      omega

/-- No more rounds are run: the bytes are at their end, or the next round fails. -/
def Halts (reader : Reader α) (c : Cursor) : Prop :=
  c.rest ≠ [] → ∃ e c', reader c = .error e c'

theorem Halts.not_ok {c c' : Cursor} {a : α} (h : Halts reader c) (left : c.rest ≠ []) :
    reader c ≠ .ok a c' := by
  intro hok
  obtain ⟨_, _, hfail⟩ := h left
  rw [hok] at hfail
  cases hfail

/-- There is one way only for a loop to go on until it halts. -/
theorem Rounds.unique {c c₁ c₂ : Cursor} {as bs : List α} (h : Rounds reader c as c₁)
    (hhalt : Halts reader c₁) (h' : Rounds reader c bs c₂) (hhalt' : Halts reader c₂) :
    as = bs ∧ c₁ = c₂ := by
  induction h generalizing bs with
  | none c =>
      cases h' with
      | none => exact ⟨rfl, rfl⟩
      | more left round => exact absurd round (hhalt.not_ok left)
  | more left round _ ih =>
      cases h' with
      | none => exact absurd round (hhalt'.not_ok left)
      | more _ round' rest' =>
          cases round.symm.trans round'
          obtain ⟨rfl, rfl⟩ := ih hhalt rest'
          exact ⟨rfl, rfl⟩

/-- What a loop over the bytes comes to: the values of its rounds up to the end of the
bytes, or the error of the round that fails. -/
def Runs (reader : Reader α) (c : Cursor) :
    EStateM.Result TransactionError Cursor (List α) → Prop
  | .ok as c' => Rounds reader c as c' ∧ c'.rest = []
  | .error e c' => ∃ as c₁, Rounds reader c as c₁ ∧ c₁.rest ≠ [] ∧ reader c₁ = .error e c'

theorem Runs.unique {c : Cursor} {r r' : EStateM.Result TransactionError Cursor (List α)}
    (h : Runs reader c r) (h' : Runs reader c r') : r = r' := by
  have hend : ∀ {c' : Cursor}, c'.rest = [] → Halts reader c' :=
    fun hnil hleft => absurd hnil hleft
  have hfails : ∀ {c₁ c' : Cursor} {e : TransactionError}, reader c₁ = .error e c' →
      Halts reader c₁ := fun hfail _ => ⟨_, _, hfail⟩
  cases r with
  | ok as c₁ =>
      obtain ⟨hrounds, hnil⟩ := h
      cases r' with
      | ok bs c₂ =>
          obtain ⟨rfl, rfl⟩ := hrounds.unique (hend hnil) h'.1 (hend h'.2)
          rfl
      | error e c' =>
          obtain ⟨bs, c₂, hrounds', hleft, hfail⟩ := h'
          obtain ⟨_, rfl⟩ := hrounds.unique (hend hnil) hrounds' (hfails hfail)
          exact absurd hnil hleft
  | error e c' =>
      obtain ⟨as, c₁, hrounds, hleft, hfail⟩ := h
      cases r' with
      | ok bs c₂ =>
          obtain ⟨_, rfl⟩ := hrounds.unique (hfails hfail) h'.1 (hend h'.2)
          exact absurd h'.2 hleft
      | error e' c'' =>
          obtain ⟨bs, c₂, hrounds', _, hfail'⟩ := h'
          obtain ⟨_, rfl⟩ := hrounds.unique (hfails hfail) hrounds' (hfails hfail')
          cases hfail.symm.trans hfail'
          rfl

/-- There are too few bytes for so many rounds that the limit would end them. -/
theorem untilEnd_runs (htakes : reader.Takes least) (hleast : 0 < least) {limit : Nat}
    {c : Cursor} (hlimit : c.remaining ≤ limit) :
    Runs reader c (untilEnd limit reader c) := by
  induction limit generalizing c with
  | zero => exact ⟨.none c, List.length_eq_zero_iff.1 (Nat.le_zero.1 hlimit)⟩
  | succ limit ih =>
      show Runs reader c ((if c.rest.isEmpty then (pure [] : Reader (List α)) else _) c)
      by_cases hend : c.rest = []
      · rw [if_pos (List.isEmpty_iff.2 hend)]
        exact ⟨.none c, hend⟩
      · rw [if_neg (fun hempty => hend (List.isEmpty_iff.1 hempty))]
        simp only [bind, EStateM.bind]
        cases hround : reader c with
        | error e c' => exact ⟨[], c, .none c, hend, hround⟩
        | ok a c₁ =>
            have htaken := htakes _ _ _ hround
            have hruns := ih (c := c₁) (by omega)
            simp only []
            cases hloop : untilEnd limit reader c₁ with
            | ok as c' =>
                rw [hloop] at hruns
                exact ⟨.more hend hround hruns.1, hruns.2⟩
            | error e c' =>
                rw [hloop] at hruns
                obtain ⟨as, c₂, hrounds, hfail⟩ := hruns
                exact ⟨a :: as, c₂, .more hend hround hrounds, hfail⟩

/-- A loop over the bytes ends: after no more rounds than the bytes can hold it comes to
what it is. -/
structure Ends (reader : Reader α) (least : Nat) (c : Cursor) : Prop where
  rounds : ∀ as c', Rounds reader c as c' → as.length ≤ c.remaining / least
  result : ∀ r, many reader c = r ↔ Runs reader c r

theorem many_ends (htakes : reader.Takes least) (hleast : 0 < least) (c : Cursor) :
    Ends reader least c := by
  have hruns : Runs reader c (many reader c) := untilEnd_runs htakes hleast (Nat.le_refl _)
  refine ⟨fun as c' h => ?_, fun r => ⟨fun h => ?_, fun h => hruns.unique h⟩⟩
  · rw [Nat.le_div_iff_mul_le hleast, Nat.mul_comm]
    have hused := h.remaining_le htakes
    omega
  · subst h
    exact hruns

/-! ## Rounds that announce their size -/

/-- A value takes just as many bytes as stand in front of it, and no fewer than so
many. -/
def TakesAnnounced (reader : Reader α) (least : Nat) : Prop :=
  ∀ c a c', reader c = .ok a c' → ∃ size : UInt32, peek32 c = .ok size c ∧
    least ≤ size.toNat ∧ size.toNat ≤ c.remaining ∧ c' = c.skip size.toNat

theorem TakesAnnounced.takes (h : reader.TakesAnnounced least) : reader.Takes least := by
  intro c a c' hread
  obtain ⟨size, _, hsize, hroom, rfl⟩ := h c a c' hread
  rw [Cursor.remaining_skip]
  omega

theorem Accepts.takesAnnounced {form : Form α} (h : Accepts reader form)
    (hform : ∀ a b, form a b → least ≤ b.length ∧
      ∃ size : UInt32, size.toNat = b.length ∧ bytes32 size <+: b) :
    reader.TakesAnnounced least := by
  intro c a c' hread
  obtain ⟨b, hb, hpass⟩ := (h c c' a).1 hread
  obtain ⟨hlen, size, hsize, rest, rfl⟩ := hform a b hb
  obtain ⟨c₁, hpeek, _⟩ := Cursor.passes_append.1 hpass
  have hroom := hpass.remaining_eq
  refine ⟨size, peek32_ok.2 ⟨rfl, c₁, hpeek⟩, by omega, by omega, ?_⟩
  rw [hsize]
  exact hpass.eq_skip

end Reader

open Reader

theorem VerificationFailure.read_takesAnnounced (network : Network) :
    (read network).TakesAnnounced Layout.failure := by
  refine (read_accepts network).takesAnnounced fun f b h => ?_
  have hlen := length_bytes h.2
  obtain ⟨hlt, rfl⟩ := bytes_ok.1 h.2
  refine ⟨?_, UInt32.ofNat f.size, ?_, ?_⟩
  · rw [hlen, size]
    exact Nat.le_add_right _ _
  · exact (UInt32.toNat_ofNat_of_lt' hlt).trans hlen.symm
  · rw [List.append_assoc]
    exact List.prefix_append _ _

theorem VerificationFailure.length_le_listSize (fs : List VerificationFailure) :
    Layout.failure * fs.length ≤ listSize fs := by
  induction fs with
  | nil => exact Nat.le_refl 0
  | cons f rest ih =>
      rw [listSize, size, List.length_cons, Nat.mul_succ]
      omega

/-! ## Cosignatures -/

namespace Cosignature

variable {network : Network} {c c' : Cursor}

theorem remaining_of_read {s : Cosignature} (h : read network c = .ok s c') :
    c.remaining = Layout.cosignature + c'.remaining := by
  obtain ⟨b, ⟨_, rfl⟩, hpass⟩ := (read_accepts network c c' s).1 h
  rw [hpass.remaining_eq, s.length_bytes]

theorem read_takes (network : Network) : (read network).Takes Layout.cosignature :=
  fun _ _ _ h => Nat.le_of_eq (remaining_of_read h).symm

/-- A cosignature is read wherever its bytes are. -/
theorem read_of_room (h : Layout.cosignature ≤ c.remaining) :
    ∃ s, read network c = .ok s (c.skip Layout.cosignature) := by
  have hroom : 32 + 64 ≤ c.remaining := h
  obtain ⟨key, hkey⟩ := octets_of_room (n := 32) (c := c) (by omega)
  obtain ⟨signature, hsignature⟩ := octets_of_room (n := 64) (c := c.skip 32)
    (by rw [Cursor.remaining_skip]; omega)
  rw [Cursor.skip_skip] at hsignature
  exact ⟨_, bind_ok.2 ⟨key, _, hkey, bind_ok.2 ⟨signature, _, hsignature, rfl⟩⟩⟩

theorem remaining_of_rounds {cs : List Cosignature} (h : Rounds (read network) c cs c') :
    c.remaining = Layout.cosignature * cs.length + c'.remaining := by
  induction h with
  | none c => simp
  | more _ hround _ ih =>
      rw [remaining_of_read hround, ih, List.length_cons, Nat.mul_succ]
      omega

/-- Where the bytes come out even a round has the bytes of one cosignature at least, or
none. -/
theorem read_of_rounds {cs : List Cosignature} (heven : c.remaining % Layout.cosignature = 0)
    (h : Rounds (read network) c cs c') (hleft : c'.rest ≠ []) :
    Layout.cosignature ≤ c'.remaining ∧
      ∃ s, read network c' = .ok s (c'.skip Layout.cosignature) := by
  have hroom : Layout.cosignature ≤ c'.remaining := by
    have hused := remaining_of_rounds h
    have hpos : 0 < c'.remaining := List.length_pos_iff.2 hleft
    simp only [Layout.cosignature] at heven hused ⊢
    omega
  exact ⟨hroom, read_of_room hroom⟩

end Cosignature

namespace Transaction

theorem readCosignatures_even {network : Network} {c : Cursor}
    (heven : c.remaining % Layout.cosignature = 0) :
    ∃ cs, readCosignatures network c = .ok cs (c.skip c.remaining) ∧
      cs.length = c.remaining / Layout.cosignature := by
  have hmany : readCosignatures network c = many (Cosignature.read network) c := by
    show (if c.remaining % Layout.cosignature ≠ 0 then _ else
      many (Cosignature.read network)) c = _
    rw [if_neg (fun hne => hne heven)]
  have hends := many_ends (Cosignature.read_takes network) (by decide) c
  cases hread : many (Cosignature.read network) c with
  | error e c' =>
      obtain ⟨cs, c₁, hrounds, hleft, hfail⟩ := (hends.result _).1 hread
      obtain ⟨_, s, hok⟩ := Cosignature.read_of_rounds heven hrounds hleft
      rw [hfail] at hok
      cases hok
  | ok cs c' =>
      obtain ⟨hend, _, hpass⟩ := readCosignatures_ok.1 (hmany.trans hread)
      have hlen := hpass.remaining_eq
      have hnone : c'.remaining = 0 := List.length_eq_zero_iff.2 hend
      rw [hnone, Nat.add_zero] at hlen
      refine ⟨cs, ?_, ?_⟩
      · rw [hmany, hread, hpass.eq_skip, ← hlen]
      · rw [hlen, length_flatMap_of_width Cosignature.length_bytes,
          Nat.mul_div_cancel_left _ (by decide)]

/-! ## Parts and failures -/

theorem readInner_takesAnnounced : readInner.TakesAnnounced Layout.embeddedHeaderSize := by
  refine readInner_accepts.takesAnnounced fun tx b h => ?_
  have hlen := length_toEmbeddedBytes h.2
  have hsize := headerSize_le_size tx
  obtain ⟨hlt, body, hb⟩ := toEmbeddedBytes_prefix h.2
  refine ⟨?_, UInt32.ofNat b.length, UInt32.toNat_ofNat_of_lt' hlt, _, hb.symm⟩
  simp only [Layout.embeddedReduction, Layout.headerSize, Layout.embeddedHeaderSize]
    at hlen hsize ⊢
  omega

/-- Parts take their fixed fields at least. -/
theorem length_le_innerSize (txs : List Transaction) :
    Layout.embeddedHeaderSize * txs.length ≤ innerSize txs := by
  induction txs with
  | nil => exact Nat.le_refl 0
  | cons tx rest ih =>
      have hsize := headerSize_le_size tx
      rw [innerSize, List.length_cons, Nat.mul_succ]
      simp only [Layout.embeddedReduction, Layout.headerSize, Layout.embeddedHeaderSize]
        at hsize ih ⊢
      omega

theorem length_of_ofBytes {b : List UInt8} {tx : Transaction} (h : ofBytes b = .ok tx) :
    b.length = tx.size :=
  length_toBytes (ofBytes_ok.1 h).2

/-- The loops that run until the bytes end do end, whatever the bytes announce. A round
that gives a part takes what is announced, and 42 bytes or more; one that gives a
failure takes what is announced, and 36 bytes or more; one for a cosignature takes 96
bytes and cannot fail. So there are never more rounds than the bytes have room for, and
the loops are what their rounds come to. -/
theorem open_loops_end (network : Network) :
    readInner.TakesAnnounced 42 ∧
    (VerificationFailure.read network).TakesAnnounced 36 ∧
    (∀ c cs c', c.remaining % 96 = 0 → Rounds (Cosignature.read network) c cs c' →
      c'.rest ≠ [] →
      96 ≤ c'.remaining ∧ ∃ s, Cosignature.read network c' = .ok s (c'.skip 96)) ∧
    (∀ c, Ends readInner 42 c ∧ Ends (VerificationFailure.read network) 36 c ∧
      Ends (Cosignature.read network) 96 c) ∧
    (∀ c, c.remaining % 96 = 0 → ∃ cs, readCosignatures network c =
      .ok cs (c.skip c.remaining) ∧ cs.length = c.remaining / 96) ∧
    (∀ b header inner cs, ofBytes b = .ok (.aggregate header inner cs) →
      inner.length ≤ innerSize inner / 42 ∧
        b.length = 126 + innerSize inner + 96 * cs.length) ∧
    ∀ b header fs, ofBytes b = .ok (.single header (.endDriveVerification fs)) →
      fs.length ≤ (b.length - 122) / 36 := by
  have hparts := readInner_takesAnnounced
  have hfailures := VerificationFailure.read_takesAnnounced network
  refine ⟨hparts, hfailures, ?_, fun c => ⟨?_, ?_, ?_⟩, ?_, ?_, ?_⟩
  · exact fun c cs c' heven hrounds hleft => Cosignature.read_of_rounds heven hrounds hleft
  · exact many_ends hparts.takes (by decide) c
  · exact many_ends hfailures.takes (by decide) c
  · exact many_ends (Cosignature.read_takes network) (by decide) c
  · exact fun c heven => readCosignatures_even heven
  · intro b header inner cs h
    refine ⟨?_, length_of_ofBytes h⟩
    rw [Nat.le_div_iff_mul_le (by decide), Nat.mul_comm]
    exact length_le_innerSize inner
  · intro b header fs h
    have hlen : b.length = 122 + VerificationFailure.listSize fs := length_of_ofBytes h
    have hsize := VerificationFailure.length_le_listSize fs
    rw [Nat.le_div_iff_mul_le (by decide)]
    simp only [Layout.failure] at hsize
    omega

/-- A replicator that has failed for no block in particular. -/
def blockless : VerificationFailure :=
  ⟨.ofKey (.zero 32) .mijinTest, []⟩

/-- A verification that ends with this failure. -/
def reported : Transaction :=
  .single (Header.new .endDriveVerification .mijinTest 1) (.endDriveVerification [blockless])

theorem blockless_read : VerificationFailure.read .mijinTest
    (.start (bytes32 36 ++ List.replicate 32 0)) = .ok blockless ⟨36, []⟩ :=
  (VerificationFailure.read_accepts .mijinTest _ _ _).2
    ⟨_, ⟨rfl, VerificationFailure.bytes_ok.2 ⟨by decide, rfl⟩⟩, Cursor.passes_rest 0 _⟩

theorem anonymousJoin_read : ∃ b, b.length = 74 ∧
    readInner (.start b) = .ok anonymousJoin ⟨74, []⟩ := by
  have hb : anonymousJoin.toEmbeddedBytes = .ok _ :=
    toEmbeddedBytes_ok.2 ⟨_, _, Header.embeddedBytes_ok.2 ⟨by decide, rfl⟩, rfl, rfl⟩
  exact ⟨_, length_toEmbeddedBytes hb,
    (readInner_accepts _ _ _).2 ⟨_, ⟨anonymousJoin_isPart, hb⟩, Cursor.passes_rest 0 _⟩⟩

theorem reported_ofBytes : ∃ b, b.length = 158 ∧ ofBytes b = .ok reported := by
  have hb : reported.toBytes = .ok _ :=
    toBytes_ok.2 ⟨_, _, Header.bytes_ok.2 ⟨by decide, rfl⟩, rfl, rfl⟩
  refine ⟨_, length_toBytes hb,
    ofBytes_ok.2 ⟨wellTyped_and_isCarried.2 ⟨rfl, ?_, rfl, ?_, ?_⟩, hb⟩⟩
  · exact Header.new_isNormal _ _ _
  · intro a ha
    rw [List.mem_singleton.1 ha]
    rfl
  · exact fun part hpart => (nomatch hpart)

/-- Rounds of each of the three loops, two cosignatures, and the counts of what is read
from whole byte strings; there is no room for another failure. -/
theorem open_loops_end_at_rounds :
    (∃ (b : List UInt8) (size : UInt32), b.length = 74 ∧ peek32 (.start b) = .ok size (.start b) ∧
      42 ≤ size.toNat ∧ (Cursor.start b).skip size.toNat = ⟨74, []⟩) ∧
    (∃ size : UInt32, 36 ≤ size.toNat ∧
      (Cursor.start (bytes32 36 ++ List.replicate 32 0)).skip size.toNat = ⟨36, []⟩) ∧
    (∃ s, Cosignature.read .mijinTest (.start (List.replicate 96 0)) = .ok s ⟨96, []⟩) ∧
    (∃ cs c, readCosignatures .mijinTest (.start (List.replicate 192 0)) = .ok cs c ∧
      cs.length = 2) ∧
    anonymousBytes.length = 126 + innerSize [anonymousJoin] ∧
    ∃ b, ofBytes b = .ok reported ∧ 1 ≤ (b.length - 122) / 36 := by
  obtain ⟨hparts, hfailures, hround, _, hcosignatures, haggregate, hfailed⟩ :=
    open_loops_end .mijinTest
  refine ⟨?_, ?_, ?_, ?_, ?_, ?_⟩
  · obtain ⟨b, hlen, hread⟩ := anonymousJoin_read
    obtain ⟨size, hpeek, hleast, _, heq⟩ := hparts _ _ _ hread
    exact ⟨b, size, hlen, hpeek, hleast, heq.symm⟩
  · obtain ⟨size, _, hleast, _, heq⟩ := hfailures _ _ _ blockless_read
    exact ⟨size, hleast, heq.symm⟩
  · exact (hround (.start (List.replicate 96 0)) [] _ rfl (.none _) (List.cons_ne_nil _ _)).2
  · have hroom : (Cursor.start (List.replicate 192 0)).remaining = 192 := List.length_replicate
    obtain ⟨cs, hread, hlen⟩ := hcosignatures _ (by rw [hroom])
    rw [hroom] at hlen
    exact ⟨cs, _, hread, hlen⟩
  · exact (haggregate anonymousBytes _ [anonymousJoin] [] ofBytes_anonymousBytes).2
  · obtain ⟨b, _, hread⟩ := reported_ofBytes
    exact ⟨b, hread, hfailed b _ _ hread⟩

end Transaction

end DriveChain
