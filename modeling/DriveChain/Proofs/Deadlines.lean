import DriveChain.Transaction.Deadline

/-!
# Deadlines and dates

A deadline is reckoned from a date by a subtraction that nothing checks, and a date from
a deadline by steps that are all checked. The lemmas say of each step, in whole numbers,
what it comes to: a checked one has a result just if the true one fits its 64 bits, and
the unchecked one is right wherever the true one fits.

It fits for every date there is, because the calendar is far narrower than 64 bits: its
first and last date, like the start of the network, are within 2^53 of zero. So it is
the bounds of the calendar, and not those of the words, that decide which deadlines are
dates. From the start of the network on the two ways are inverse; what is earlier counts
as the start.
-/

namespace DriveChain

namespace Signed

theorem toInt_sub_of_fits {a b : Int64} (hlow : Int64.minValue.toInt ≤ a.toInt - b.toInt)
    (hhigh : a.toInt - b.toInt ≤ Int64.maxValue.toInt) :
    (a - b).toInt = a.toInt - b.toInt := by
  rw [Int64.toInt_sub]
  exact Int.bmod_eq_of_le hlow (Int.lt_add_one_of_le hhigh)

theorem ofWord?_eq_some {n : UInt64} {a : Int64} :
    ofWord? n = some a ↔ a.toInt = n.toNat := by
  have hmax : n ≤ Int64.maxValue.toUInt64 ↔ n.toNat < 2 ^ 63 := by
    rw [UInt64.le_iff_toNat_le]
    exact Nat.lt_succ_iff.symm
  have hsame : n.toNat < 2 ^ 63 → n.toInt64.toInt = n.toNat := by
    intro hn
    show n.toBitVec.toInt = n.toBitVec.toNat
    exact BitVec.toInt_eq_toNat_of_lt (by
      show 2 * n.toNat < 2 ^ 64
      omega)
  unfold ofWord?
  refine ⟨fun h => ?_, fun h => ?_⟩
  · split at h
    · next hle =>
        cases h
        exact hsame (hmax.1 hle)
    · cases h
  · have hn : n.toNat < 2 ^ 63 := by
      have hlt := a.toInt_lt
      omega
    rw [if_pos (hmax.2 hn), Option.some.injEq, ← Int64.toInt_inj, hsame hn, h]

theorem add?_eq_some {a b c : Int64} :
    add? a b = some c ↔ c.toInt = a.toInt + b.toInt := by
  unfold add?
  refine ⟨fun h => ?_, fun h => ?_⟩
  · split at h
    · next heq =>
        cases h
        exact heq
    · cases h
  · have heq : (a + b).toInt = a.toInt + b.toInt := by
      rw [Int64.toInt_add, ← h]
      exact Int.bmod_eq_of_le c.le_toInt c.toInt_lt
    rw [if_pos heq, Option.some.injEq, ← Int64.toInt_inj, heq, h]

end Signed

namespace Instant

variable {t t' : Int}

theorem isValid_iff : isValid t = true ↔ earliest ≤ t ∧ t ≤ latest := by
  rw [isValid, Bool.and_eq_true, decide_eq_true_iff, decide_eq_true_iff]

/-- What comes after the start of the network is a date up to the last one. -/
theorem isValid_of_le_latest {n : Nat} (hlatest : n + epoch ≤ latest) :
    isValid (n + epoch) = true := by
  refine isValid_iff.2 ⟨?_, hlatest⟩
  unfold earliest epoch
  omega

theorem toInt_epoch : (Int64.ofInt epoch).toInt = epoch :=
  Int64.toInt_ofInt_of_le (by decide) (by decide)

/-- Dates are numbers of 64 bits. -/
theorem toInt_ofInt (ht : isValid t = true) : (Int64.ofInt t).toInt = t := by
  obtain ⟨hearliest, hlatest⟩ := isValid_iff.1 ht
  unfold earliest at hearliest
  unfold latest at hlatest
  exact Int64.toInt_ofInt_of_le (by omega) (by omega)

/-- So are the spans from the start of the network to a date. -/
theorem sinceEpoch_fits (ht : isValid t = true) :
    Int64.minValue.toInt ≤ t - epoch ∧ t - epoch ≤ Int64.maxValue.toInt := by
  obtain ⟨hearliest, hlatest⟩ := isValid_iff.1 ht
  rw [Int64.toInt_minValue, Int64.toInt_maxValue]
  unfold earliest at hearliest
  unfold latest at hlatest
  unfold epoch
  omega

theorem toInt_sinceEpoch (ht : isValid t = true) :
    (sinceEpoch (Int64.ofInt t)).toInt = t - epoch := by
  have hterms : (Int64.ofInt t).toInt - (Int64.ofInt epoch).toInt = t - epoch := by
    rw [toInt_ofInt ht, toInt_epoch]
  obtain ⟨hlow, hhigh⟩ := sinceEpoch_fits ht
  rw [← hterms] at hlow hhigh
  rw [sinceEpoch, Signed.toInt_sub_of_fits hlow hhigh, hterms]

theorem toNat_toUInt64_max_zero (a : Int64) :
    ((max a 0).toUInt64.toNat : Int) = max 0 a.toInt := by
  have hmax : max a 0 = if a ≤ 0 then 0 else a := rfl
  rw [hmax]
  split
  · next hle =>
      have hneg : a.toInt ≤ 0 := Int64.le_iff_toInt_le.1 hle
      rw [Int.max_eq_left hneg]
      rfl
  · next hpos =>
      have hnonneg : 0 ≤ a.toInt := by
        have hlt : ¬ a.toInt ≤ 0 := fun h => hpos (Int64.le_iff_toInt_le.2 h)
        omega
      rw [Int.max_eq_right hnonneg]
      have hle : (0 : Int64) ≤ a := Int64.le_iff_toInt_le.2 hnonneg
      rw [Int64.toNat_toUInt64_of_le hle, Int64.cast_toNatClampNeg a hle]

theorem toNat_deadline (ht : isValid t = true) :
    ((deadline t).toNat : Int) = max 0 (t - epoch) := by
  rw [deadline, toNat_toUInt64_max_zero, toInt_sinceEpoch ht]

theorem deadline_mono (ht : isValid t = true) (ht' : isValid t' = true) (hle : t ≤ t') :
    deadline t ≤ deadline t' := by
  have hfirst := toNat_deadline ht
  have hsecond := toNat_deadline ht'
  rw [UInt64.le_iff_toNat_le]
  omega

end Instant

namespace Deadline

variable {d : Deadline} {t : Int}

/-- A deadline has an instant just if the calendar goes so far; 64 bits always do. -/
theorem instant?_eq_some :
    d.instant? = some t ↔ d.toNat + Instant.epoch ≤ Instant.latest ∧
      t = d.toNat + Instant.epoch := by
  have hepoch := Instant.toInt_epoch
  unfold instant?
  simp only [bind, Option.bind_eq_some_iff, Signed.ofWord?_eq_some, Signed.add?_eq_some,
    Option.ite_none_right_eq_some, Option.some.injEq, Instant.isValid_iff]
  refine ⟨fun h => ?_, fun h => ?_⟩
  · obtain ⟨a, ha, b, hb, hvalid, rfl⟩ := h
    rw [hb, ha, hepoch] at hvalid ⊢
    exact ⟨hvalid.2, rfl⟩
  · obtain ⟨hlatest, rfl⟩ := h
    have hvalid := Instant.isValid_of_le_latest hlatest
    have hword : (Int64.ofInt d.toNat).toInt = d.toNat := by
      unfold Instant.latest Instant.epoch at hlatest
      exact Int64.toInt_ofInt_of_le (by omega) (by omega)
    have hsum := Instant.toInt_ofInt hvalid
    refine ⟨_, hword, _, ?_, ?_, hsum⟩
    · rw [hsum, hword, hepoch]
    · rw [hsum]
      exact Instant.isValid_iff.1 hvalid

end Deadline

namespace Instant

/-- The deadline of a date is never reckoned wrongly, grows with the date and leads back to
it, or to the start of the network if the date is earlier. A deadline leads to a date just
if the calendar goes so far, and the date leads back to it. -/
theorem deadline_inverse (t t' : Int) (d : Deadline) :
    (isValid t = true →
      Int64.minValue.toInt ≤ t - epoch ∧ t - epoch ≤ Int64.maxValue.toInt ∧
        (sinceEpoch (Int64.ofInt t)).toInt = t - epoch ∧
        ((deadline t).toNat : Int) = max 0 (t - epoch) ∧
        (isValid t' = true → t ≤ t' → deadline t ≤ deadline t') ∧
        (deadline t).instant? = some (max t epoch)) ∧
    (d.instant?.isSome = true ↔ d.toNat + epoch ≤ latest) ∧
    ∀ s, d.instant? = some s → s = d.toNat + epoch ∧ isValid s = true ∧ deadline s = d := by
  refine ⟨fun ht => ?_, ?_, fun s hs => ?_⟩
  · obtain ⟨hlow, hhigh⟩ := sinceEpoch_fits ht
    have hnat := toNat_deadline ht
    refine ⟨hlow, hhigh, toInt_sinceEpoch ht, hnat,
      fun ht' hle => deadline_mono ht ht' hle, ?_⟩
    have hlatest := (isValid_iff.1 ht).2
    rw [Deadline.instant?_eq_some, hnat]
    unfold latest at hlatest ⊢
    unfold epoch
    omega
  · rw [Option.isSome_iff_exists]
    refine ⟨fun h => ?_, fun h => ?_⟩
    · obtain ⟨s, hs⟩ := h
      exact (Deadline.instant?_eq_some.1 hs).1
    · exact ⟨_, Deadline.instant?_eq_some.2 ⟨h, rfl⟩⟩
  · obtain ⟨hlatest, rfl⟩ := Deadline.instant?_eq_some.1 hs
    have hvalid := isValid_of_le_latest hlatest
    refine ⟨rfl, hvalid, UInt64.toNat_inj.1 ?_⟩
    have hnat := toNat_deadline hvalid
    omega

/-- The first and the last date, and the deadlines on both sides of the last one. -/
theorem deadline_inverse_at_bounds :
    isValid earliest = true ∧ isValid latest = true ∧
    (sinceEpoch (Int64.ofInt earliest)).toInt = -8336060697600000 ∧
    deadline earliest ≤ deadline latest ∧
    (deadline earliest).instant? = some epoch ∧
    (deadline latest).instant? = some latest ∧
    Deadline.instant? 8208807407999999 = some latest ∧ deadline latest = 8208807407999999 ∧
    (Deadline.instant? 8208807408000000).isSome = false := by
  have hearliest : isValid earliest = true := by decide
  have hlatest : isValid latest = true := by decide
  obtain ⟨_, _, hspan, _, hmono, hback⟩ := (deadline_inverse earliest latest 0).1 hearliest
  obtain ⟨_, _, _, _, _, hback'⟩ := (deadline_inverse latest latest 0).1 hlatest
  obtain ⟨_, hlast⟩ := (deadline_inverse 0 0 8208807407999999).2
  obtain ⟨hnone, _⟩ := (deadline_inverse 0 0 8208807408000000).2
  have hsome : Deadline.instant? 8208807407999999 = some latest :=
    Deadline.instant?_eq_some.2 ⟨by decide, by decide⟩
  refine ⟨hearliest, hlatest, hspan, hmono hlatest (by decide), hback, hback', hsome,
    (hlast latest hsome).2.2, ?_⟩
  rw [Bool.eq_false_iff]
  exact fun h => absurd (hnone.1 h) (by decide)

end Instant

end DriveChain
