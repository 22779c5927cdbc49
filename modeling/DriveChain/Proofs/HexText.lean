import DriveChain.Proofs.IdentifierText

/-!
# Octets in either case

Octets are written as two upper-case digits each and read in either case. So what a text is
read as goes by its upper case alone: it is read as the octets that its upper case is
written for, and there are such octets just if the text has as many digits as they need and
nothing else.
-/

namespace DriveChain

namespace Hex

/-- The two digits of a byte, as numbers. -/
def halves (b : UInt8) : List Nat :=
  [b.toNat / 16, b.toNat % 16]

theorem halves_ofNat {high low : Nat} (hhigh : high < 16) (hlow : low < 16) :
    halves (UInt8.ofNat (16 * high + low)) = [high, low] := by
  have hbyte : (UInt8.ofNat (16 * high + low)).toNat = 16 * high + low :=
    UInt8.toNat_ofNat_of_lt' (show 16 * high + low < 256 by omega)
  have hdiv : (16 * high + low) / 16 = high := by omega
  have hmod : (16 * high + low) % 16 = low := by omega
  rw [halves, hbyte, hdiv, hmod]

theorem ofNat_halves (b : UInt8) : UInt8.ofNat (16 * (b.toNat / 16) + b.toNat % 16) = b := by
  rw [Nat.div_add_mod, UInt8.ofNat_toNat]

theorem lt_of_mem_halves {bytes : List UInt8} : ∀ d ∈ bytes.flatMap halves, d < 16 := by
  intro d h
  obtain ⟨b, _, hd⟩ := List.mem_flatMap.1 h
  have hb := b.toNat_lt
  simp only [halves, List.mem_cons, List.not_mem_nil, or_false] at hd
  omega

theorem length_halves (bytes : List UInt8) : (bytes.flatMap halves).length = 2 * bytes.length := by
  induction bytes with
  | nil => rfl
  | cons b rest ih =>
      rw [List.flatMap_cons, List.length_append, ih, List.length_cons, halves, List.length_cons,
        List.length_singleton]
      omega

theorem toList_encode (bytes : List UInt8) :
    (encode bytes).toList = (bytes.flatMap halves).map digit := by
  rw [encode, String.toList_ofList, List.map_flatMap]
  rfl

/-- Digits in pairs are bytes. -/
theorem exists_halves {ds : List Nat} (h : ∀ d ∈ ds, d < 16) (heven : ds.length % 2 = 0) :
    ∃ bytes : List UInt8, bytes.flatMap halves = ds := by
  match ds with
  | [] => exact ⟨[], rfl⟩
  | [_] => cases heven
  | high :: low :: rest =>
      rw [List.forall_mem_cons, List.forall_mem_cons] at h
      obtain ⟨hhigh, hlow, hrest⟩ := h
      rw [List.length_cons, List.length_cons] at heven
      obtain ⟨bytes, hbytes⟩ := exists_halves hrest (by omega)
      refine ⟨UInt8.ofNat (16 * high + low) :: bytes, ?_⟩
      rw [List.flatMap_cons, hbytes, halves_ofNat hhigh hlow]
      rfl

theorem value?_lt {b : UInt8} {d : Nat} (h : value? b = some d) : d < 16 := by
  unfold value? at h
  simp only [] at h
  split at h
  · cases h
    omega
  · split at h
    · cases h
      omega
    · split at h <;> cases h
      omega

/-! ## Pairs digit by digit -/

theorem mapM_of_decodePairs {digits bytes : List UInt8} {position : Nat}
    (heven : digits.length % 2 = 0) (h : decodePairs position digits = .ok bytes) :
    digits.mapM value? = some (bytes.flatMap halves) := by
  match digits with
  | [] =>
      cases h
      rfl
  | [_] => cases heven
  | high :: low :: rest =>
      rw [decodePairs] at h
      split at h
      · cases h
      · next n hhigh =>
          split at h
          · cases h
          · next m hlow =>
              split at h
              · cases h
              · next tail htail =>
                  cases h
                  rw [List.length_cons, List.length_cons] at heven
                  have hrest := mapM_of_decodePairs (by omega) htail
                  rw [List.mapM_cons, List.mapM_cons, hhigh, hlow, hrest, List.flatMap_cons,
                    halves_ofNat (value?_lt hhigh) (value?_lt hlow)]
                  rfl

theorem decodePairs_of_mapM {digits bytes : List UInt8} {position : Nat}
    (h : digits.mapM value? = some (bytes.flatMap halves)) :
    decodePairs position digits = .ok bytes := by
  induction bytes generalizing digits position with
  | nil =>
      have hlength := Identifier.length_of_mapM h
      rw [List.length_eq_zero_iff.1 hlength]
      rfl
  | cons b bytes ih =>
      have hlength := Identifier.length_of_mapM h
      rw [length_halves, List.length_cons] at hlength
      match digits with
      | [] => cases hlength
      | [_] =>
          rw [List.length_singleton] at hlength
          omega
      | high :: low :: rest =>
          simp only [List.mapM_cons, List.flatMap_cons, halves, Option.bind_eq_bind,
            Option.bind_eq_some_iff, Option.pure_def, Option.some.injEq, List.cons_append,
            List.nil_append, List.cons.injEq] at h
          obtain ⟨_, hhigh, _, ⟨_, hlow, _, hrest, rfl⟩, rfl, heq⟩ := h
          obtain ⟨rfl, rfl⟩ := List.cons.inj heq
          rw [decodePairs, hhigh]
          simp only [hlow, ih hrest, ofNat_halves]

end Hex

namespace Octets

variable {n : Nat} {text text' : String} {a : Octets n}

theorem toUpper_eq_hex : text.toUpper = a.hex ↔
    (utf8 text).mapM Hex.value? = some (a.bytes.flatMap Hex.halves) := by
  rw [utf8, Hex.mapM_value?_utf8, ← String.toList_inj, String.toUpper, String.toList_map, hex,
    Hex.toList_encode]
  exact ⟨fun h => ⟨Hex.lt_of_mem_halves, h⟩, fun h => h.2⟩

/-- A text is read as the octets that are written as its upper case. -/
theorem ofHex_ok : ofHex n text = .ok a ↔ text.toUpper = a.hex := by
  rw [toUpper_eq_hex]
  refine ⟨fun h => ?_, fun h => ?_⟩
  · unfold ofHex at h
    simp only [] at h
    split at h
    · cases h
    · next heven =>
        split at h
        · split at h
          · cases h
          · next bytes hbytes =>
              cases h
              exact Hex.mapM_of_decodePairs (by omega) hbytes
        · cases h
  · have hlength := Identifier.length_of_mapM h
    rw [Hex.length_halves, a.length_bytes] at hlength
    have hbytes := @Hex.decodePairs_of_mapM _ _ 0 h
    unfold ofHex
    simp only []
    rw [if_neg (by omega), dif_pos (by omega)]
    split
    · next e he =>
        rw [hbytes] at he
        cases he
    · next bytes hb =>
        rw [hbytes] at hb
        cases hb
        rfl

/-- The case of a text makes no difference to what it is read as. -/
theorem ofHex_congr (h : text.toUpper = text'.toUpper) :
    ofHex n text = .ok a ↔ ofHex n text' = .ok a := by
  rw [ofHex_ok, ofHex_ok, h]

/-- The texts of octets are those of the right number of digits. -/
theorem exists_ofHex : (∃ a, ofHex n text = .ok a) ↔ Hex.IsDigits (2 * n) text := by
  simp only [ofHex_ok, Hex.IsDigits, Hex.forall_isDigit_iff]
  refine ⟨fun h => ?_, fun h => ?_⟩
  · obtain ⟨a, h⟩ := h
    have hlist : text.toList.map Char.toUpper = (a.bytes.flatMap Hex.halves).map Hex.digit := by
      rw [← Hex.toList_encode, ← hex, ← h, String.toUpper, String.toList_map]
    refine ⟨?_, _, Hex.lt_of_mem_halves, hlist⟩
    have hlength := congrArg List.length hlist
    rwa [List.length_map, List.length_map, Hex.length_halves, a.length_bytes] at hlength
  · obtain ⟨hlength, ds, hds, htext⟩ := h
    have hsame := congrArg List.length htext
    rw [List.length_map, List.length_map, hlength] at hsame
    obtain ⟨bytes, rfl⟩ := Hex.exists_halves hds (by omega)
    rw [Hex.length_halves] at hsame
    refine ⟨⟨bytes, by omega⟩, ?_⟩
    rw [← String.toList_inj, String.toUpper, String.toList_map, hex, Hex.toList_encode, htext]

end Octets

end DriveChain
