import DriveChain.Proofs.Signing

/-!
# What a hash covers

The hash of a transaction is taken of four strings with nothing between them: half of the
signature, the signer's key, the hash of the first block, and all that is signed. Only the
last has no fixed length, and it is the last. So the strings can be told from where they
stand, and what is hashed for two payloads is the same just if the payloads have the same in
all of the four places. Two payloads of one hash that differ in one of them have given two
byte strings of one digest.

Two parts of a payload stand in none of the places: its size, and the other half of the
signature.
-/

namespace DriveChain

namespace Signing

variable {p q : List UInt8} {g h : Hash}

theorem hashInput_eq (p : List UInt8) (g : Hash) :
    hashInput p g = p.extract 4 36 ++ p.extract 68 100 ++ g.bytes ++ p.drop 100 := rfl

theorem transactionHash_eq (hp : 100 ≤ p.length) :
    transactionHash p g = .ok (sha3 (hashInput p g)) := by
  unfold transactionHash
  rw [Layout.signableOffset, if_neg (by omega)]

theorem length_extract {start stop : Nat} (hp : stop ≤ p.length) :
    (p.extract start stop).length = stop - start := by
  rw [List.extract_eq_take_drop, List.length_take, List.length_drop]
  omega

/-- The parts of what is hashed can be told from where they stand. -/
theorem hashInput_inj (hp : 100 ≤ p.length) (hq : 100 ≤ q.length) :
    hashInput p g = hashInput q h ↔
      p.extract 4 36 = q.extract 4 36 ∧ p.extract 68 100 = q.extract 68 100 ∧ g = h ∧
        p.drop 100 = q.drop 100 := by
  rw [hashInput_eq, hashInput_eq]
  refine ⟨fun heq => ?_, fun hparts => ?_⟩
  · have hfirst : (p.extract 4 36).length = (q.extract 4 36).length := by
      rw [length_extract (by omega), length_extract (by omega)]
    have hsecond : (p.extract 68 100).length = (q.extract 68 100).length := by
      rw [length_extract hp, length_extract hq]
    obtain ⟨hfront, hsigned⟩ := List.append_inj heq (by
      simp only [List.length_append, hfirst, hsecond, g.length_bytes, h.length_bytes])
    obtain ⟨hslots, hblock⟩ := List.append_inj hfront (by
      rw [List.length_append, List.length_append, hfirst, hsecond])
    obtain ⟨hsignature, hsigner⟩ := List.append_inj hslots hfirst
    exact ⟨hsignature, hsigner, Octets.ext hblock, hsigned⟩
  · obtain ⟨hsignature, hsigner, rfl, hsigned⟩ := hparts
    rw [hsignature, hsigner, hsigned]

/-- Whatever stands for the size and for the second half of the signature. -/
theorem transactionHash_overwritten (hp : 100 ≤ p.length) {size half : List UInt8}
    (hsize : size.length = 4) (hhalf : half.length = 32) :
    transactionHash (size ++ p.extract 4 36 ++ half ++ p.drop 68) g = transactionHash p g := by
  have hfirst : (p.extract 4 36).length = 32 := length_extract (by omega)
  have hlength : (size ++ p.extract 4 36 ++ half).length = 68 := by
    simp only [List.length_append, hsize, hfirst, hhalf]
  have hwhole : 100 ≤ (size ++ p.extract 4 36 ++ half ++ p.drop 68).length := by
    rw [List.length_append, hlength, List.length_drop]
    omega
  rw [transactionHash_eq hwhole, transactionHash_eq hp, (hashInput_inj hwhole hp).2]
  refine ⟨?_, ?_, rfl, ?_⟩
  · rw [List.append_assoc, List.append_assoc, List.extract_eq_take_drop,
      List.drop_left' hsize, List.take_left' hfirst]
  · rw [List.extract_eq_take_drop, List.drop_left' hlength, List.extract_eq_take_drop]
  · rw [← Nat.add_sub_of_le (show 68 ≤ 100 by decide), ← List.drop_drop,
      List.drop_left' hlength, List.drop_drop]

/-- What is hashed for two payloads is the same just if they have the same in the four
places that a hash covers. So two payloads of one hash that do not are a collision of
digests, and what stands in no such place makes no difference. -/
theorem hashInput_eq_iff (hp : 100 ≤ p.length) (hq : 100 ≤ q.length) :
    (hashInput p g = hashInput q h ↔
      p.extract 4 36 = q.extract 4 36 ∧ p.extract 68 100 = q.extract 68 100 ∧ g = h ∧
        p.drop 100 = q.drop 100) ∧
    transactionHash p g = .ok (sha3 (hashInput p g)) ∧
    transactionHash q h = .ok (sha3 (hashInput q h)) ∧
    (transactionHash p g = transactionHash q h →
      ¬ (p.extract 4 36 = q.extract 4 36 ∧ p.extract 68 100 = q.extract 68 100 ∧ g = h ∧
        p.drop 100 = q.drop 100) →
      hashInput p g ≠ hashInput q h ∧ sha3 (hashInput p g) = sha3 (hashInput q h)) ∧
    ∀ size half : List UInt8, size.length = 4 → half.length = 32 →
      transactionHash (size ++ p.extract 4 36 ++ half ++ p.drop 68) g = transactionHash p g := by
  have hiff := @hashInput_inj p q g h hp hq
  refine ⟨hiff, transactionHash_eq hp, transactionHash_eq hq, fun hsame hdiffer => ?_,
    fun size half hsize hhalf => transactionHash_overwritten hp hsize hhalf⟩
  rw [transactionHash_eq hp, transactionHash_eq hq, Except.ok.injEq] at hsame
  exact ⟨fun heq => hdiffer (hiff.1 heq), hsame⟩

/-- So many bytes in a row. -/
def counting (count : Nat) : List UInt8 :=
  (List.range count).map UInt8.ofNat

/-- The first and the fortieth byte stand in no place that is hashed, and the last one
does. -/
theorem hashInput_eq_iff_counting :
    ((counting 104).set 0 9).set 40 9 ≠ counting 104 ∧
    hashInput (((counting 104).set 0 9).set 40 9) (.zero 32) =
      hashInput (counting 104) (.zero 32) ∧
    hashInput ((counting 104).set 103 9) (.zero 32) ≠ hashInput (counting 104) (.zero 32) := by
  have hlength : ∀ i j : Nat, 100 ≤ (((counting 104).set i 9).set j 9).length := by
    intro i j
    rw [List.length_set, List.length_set]
    decide
  refine ⟨by decide, ?_, ?_⟩
  · exact (hashInput_eq_iff (hlength 0 40) (by decide)).1.2 (by decide)
  · intro heq
    have hparts := (hashInput_eq_iff (by decide) (by decide)).1.1 heq
    exact absurd hparts (by decide)

end Signing

end DriveChain
