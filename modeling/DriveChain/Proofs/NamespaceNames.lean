import DriveChain.Proofs.AssetIds

/-!
# Names of namespaces

A name is one to three parts with dots between them, and leads from the root down: each
part has an identifier below that of the part before it. The lemmas below take the two
sides apart. Which texts are names is a matter of characters alone, and the reader's
checks come down to it, though it counts a part's bytes and not its characters: a part
that passes the other checks has one byte a character. What a name leads to is a matter
of the parts alone, level by level, so a name without its last part leads to the same
levels without the lowest.

Nothing is asked of the digest. It is only ever applied.
-/

namespace DriveChain

namespace Identifier

/-- The two words of a digest are its first eight bytes. -/
theorem join_words {digest : Hash} {low high : UInt32}
    (h : words digest = (low, high)) :
    Words.join low high = UInt64.ofNat (LittleEndian.value (digest.bytes.take 8)) := by
  cases h
  have hsplit : digest.bytes.take (4 + 4) =
      digest.bytes.take 4 ++ (digest.bytes.drop 4).take 4 := List.take_add
  have hlow : (digest.bytes.take 4).length = 4 := by
    rw [List.length_take, digest.length_bytes]
    rfl
  have hhigh : ((digest.bytes.drop 4).take 4).length = 4 := by
    rw [List.length_take, List.length_drop, digest.length_bytes]
    rfl
  have hlow' := LittleEndian.value_lt (digest.bytes.take 4)
  have hhigh' := LittleEndian.value_lt ((digest.bytes.drop 4).take 4)
  rw [hlow] at hlow'
  rw [hhigh] at hhigh'
  rw [Words.join, UInt32.toNat_ofNat_of_lt' hlow', UInt32.toNat_ofNat_of_lt' hhigh']
  show _ = UInt64.ofNat (LittleEndian.value (digest.bytes.take (4 + 4)))
  rw [hsplit, LittleEndian.value_append, hlow]
  rfl

end Identifier

namespace NamespaceId

/-! ## The grammar -/

/-- What a part begins with: a lower-case letter or a digit. -/
def Starts (c : Char) : Prop :=
  'a' ≤ c ∧ c ≤ 'z' ∨ '0' ≤ c ∧ c ≤ '9'

/-- What a part goes on with. -/
def Continues (c : Char) : Prop :=
  Starts c ∨ c = '_' ∨ c = '-'

/-- A part of one to sixty-four characters. -/
def IsPart (part : List Char) : Prop :=
  part.length ≤ 64 ∧ ∃ c rest, part = c :: rest ∧ Starts c ∧ ∀ d ∈ rest, Continues d

/-- A name of one to three parts. -/
def IsName (name : String) : Prop :=
  1 ≤ (name.toList.splitOn '.').length ∧ (name.toList.splitOn '.').length ≤ 3 ∧
    ∀ part ∈ name.toList.splitOn '.', IsPart part

theorem isStart_iff {c : Char} : isStart c = true ↔ Starts c := by
  unfold isStart Char.isLower Char.isDigit
  simp only [Bool.or_eq_true, Bool.and_eq_true, decide_eq_true_eq]
  exact Iff.rfl

theorem isInner_iff {c : Char} : isInner c = true ↔ Continues c := by
  rw [isInner, Bool.or_eq_true, Bool.or_eq_true, beq_iff_eq, beq_iff_eq, or_assoc]
  exact or_congr_left isStart_iff

theorem utf8Size_of_continues {c : Char} (h : Continues c) : c.utf8Size = 1 := by
  rw [Char.utf8Size_eq_one_iff]
  rcases h with (⟨_, h⟩ | ⟨_, h⟩) | rfl | rfl
  · exact UInt32.le_trans h (by decide)
  · exact UInt32.le_trans h (by decide)
  · decide
  · decide

/-- A part is without a fault just if it follows the grammar. -/
theorem partFault?_eq_none {part : List Char} :
    partFault? (String.ofList part) = none ↔ IsPart part := by
  unfold partFault? IsPart
  rw [String.toList_ofList]
  cases part with
  | nil => simp
  | cons c rest =>
      have hsize : Starts c → (∀ d ∈ rest, Continues d) →
          (String.ofList (c :: rest)).utf8ByteSize = (c :: rest).length := by
        intro hc hrest
        have hone : ∀ d ∈ c :: rest, Continues d := List.forall_mem_cons.2 ⟨.inl hc, hrest⟩
        exact utf8ByteSize_ofList fun d hd => utf8Size_of_continues (hone d hd)
      have hall : rest.all isInner = true ↔ ∀ d ∈ rest, Continues d := by
        simp only [List.all_eq_true, isInner_iff]
      simp only []
      refine ⟨fun h => ?_, fun h => ?_⟩
      · split at h
        · cases h
        · next hshort =>
            split at h
            · cases h
            · next hstart =>
                split at h
                · cases h
                · next hinner =>
                    have hc : Starts c := isStart_iff.1 (by simpa using hstart)
                    have hrest := hall.1 (by simpa using hinner)
                    rw [hsize hc hrest] at hshort
                    exact ⟨by omega, c, rest, rfl, hc, hrest⟩
      · obtain ⟨hlen, _, _, heq, hc, hrest⟩ := h
        cases heq
        rw [hsize hc hrest, if_neg (by omega), isStart_iff.2 hc, hall.2 hrest]
        rfl

theorem splitDots_eq (text : List Char) : splitDots text = text.splitOn '.' := by
  rw [List.splitOn_eq_splitOnP]
  induction text with
  | nil => rfl
  | cons c rest ih =>
      rw [splitDots, List.splitOnP_cons_eq_if_modifyHead, ih]
      by_cases hdot : c = '.'
      · rw [if_pos hdot, if_pos (by simpa using hdot)]
      · rw [if_neg hdot, if_neg (by simpa using hdot)]
        cases hparts : rest.splitOnP (· == '.') with
        | nil => exact absurd hparts (List.splitOnP_ne_nil _ _)
        | cons part parts => rfl

theorem parts_eq (name : String) :
    parts name = (name.toList.splitOn '.').map String.ofList := by
  rw [parts, splitDots_eq]

/-- A name is taken just if it follows the grammar, and its parts are what it is taken
for. -/
theorem checkedParts_ok {name : String} {ps : List String} :
    checkedParts name = .ok ps ↔ IsName name ∧ ps = parts name := by
  have hpos : 1 ≤ (name.toList.splitOn '.').length := by
    rw [List.splitOn_eq_splitOnP]
    exact List.length_pos_iff.2 (List.splitOnP_ne_nil _ _)
  have hlen : (parts name).length = (name.toList.splitOn '.').length := by
    rw [parts_eq, List.length_map]
  have hfaults : (parts name).findSome? partFault? = none ↔
      ∀ part ∈ name.toList.splitOn '.', IsPart part := by
    rw [List.findSome?_eq_none_iff, parts_eq, List.forall_mem_map]
    simp only [partFault?_eq_none]
  unfold checkedParts IsName
  simp only []
  by_cases hmany : (parts name).length > 3
  · rw [if_pos hmany]
    rw [hlen] at hmany
    refine ⟨fun h => (nomatch h), fun h => ?_⟩
    exact absurd h.1.2.1 (by omega)
  · rw [if_neg hmany]
    rw [hlen] at hmany
    cases hfault : (parts name).findSome? partFault? with
    | none =>
        have hall := hfaults.1 hfault
        simp only [Except.ok.injEq]
        refine ⟨fun h => ?_, fun h => h.2.symm⟩
        exact ⟨⟨hpos, by omega, hall⟩, h.symm⟩
    | some fault =>
        refine ⟨fun h => (nomatch h), fun h => ?_⟩
        rw [hfaults.2 h.1.2.2] at hfault
        cases hfault

theorem path_eq_ok {name : String} {levels : List NamespaceId} :
    path name = .ok levels ↔ IsName name ∧ levels = descend root (parts name) := by
  unfold path
  cases hparts : checkedParts name with
  | error e =>
      refine ⟨fun h => (nomatch h), fun h => ?_⟩
      rw [checkedParts_ok.2 ⟨h.1, rfl⟩] at hparts
      cases hparts
  | ok ps =>
      obtain ⟨hname, rfl⟩ := checkedParts_ok.1 hparts
      simp [hname, eq_comm]

/-! ## Levels -/

/-- What a part is called below another: eight bytes of the digest of the parent's words
and the part, with the top bit set. -/
def below (parent : NamespaceId) (part : List Char) : NamespaceId :=
  let digest := sha3 (bytes32 (Words.low parent.id) ++ bytes32 (Words.high parent.id) ++
    part.flatMap String.utf8EncodeChar)
  ⟨UInt64.ofNat (LittleEndian.value (digest.bytes.take 8)) ||| 0x8000000000000000⟩

theorem child_eq_below (parent : NamespaceId) (part : List Char) :
    parent.child (String.ofList part) = below parent part := by
  have hmask : Words.join 0 0x80000000 = 0x8000000000000000 := by decide
  rw [child, below, utf8, String.toList_ofList]
  generalize hwords : Identifier.words _ = words
  obtain ⟨low, high⟩ := words
  show NamespaceId.mk (Words.join low (high ||| 0x80000000)) = _
  rw [Words.join_or, Identifier.join_words hwords, hmask]

theorem length_descend (parent : NamespaceId) (parts : List String) :
    (descend parent parts).length = parts.length := by
  induction parts generalizing parent with
  | nil => rfl
  | cons part rest ih => rw [descend, List.length_cons, List.length_cons, ih]

/-- Each level is made from the one above it. -/
theorem getElem?_descend (parent : NamespaceId) {parts : List String} {i : Nat}
    {part : String} (h : parts[i]? = some part) :
    ∃ above, (parent :: descend parent parts)[i]? = some above ∧
      (descend parent parts)[i]? = some (above.child part) := by
  induction parts generalizing parent i with
  | nil => cases h
  | cons first rest ih =>
      cases i with
      | zero =>
          cases h
          exact ⟨parent, rfl, rfl⟩
      | succ i =>
          exact ih (parent.child first) h

theorem descend_concat (parent : NamespaceId) (parts : List String) (last : String) :
    ∃ lowest, descend parent (parts ++ [last]) = descend parent parts ++ [lowest] := by
  induction parts generalizing parent with
  | nil => exact ⟨_, rfl⟩
  | cons part rest ih =>
      obtain ⟨lowest, h⟩ := ih (parent.child part)
      refine ⟨lowest, ?_⟩
      rw [List.cons_append, descend, h, descend, List.cons_append]

/-- A text with a dot ends in a part without one. -/
theorem exists_last_dot {text : List Char} (h : '.' ∈ text) :
    ∃ front last, text = front ++ '.' :: last ∧ '.' ∉ last := by
  obtain ⟨before, behind, hsplit, hnot⟩ :=
    List.eq_append_cons_of_mem (List.mem_reverse.2 h)
  refine ⟨behind.reverse, before.reverse, ?_, fun hmem => hnot (List.mem_reverse.1 hmem)⟩
  rw [← List.reverse_reverse text, hsplit, List.reverse_append, List.reverse_cons,
    List.append_assoc, List.singleton_append]

theorem splitOn_eq_singleton {text : List Char} (h : '.' ∉ text) :
    text.splitOn '.' = [text] := by
  rw [List.splitOn_eq_splitOnP, List.splitOnP_eq_singleton]
  intro c hc
  simp only [beq_eq_false_iff_ne]
  rintro rfl
  exact h hc

theorem splitOn_append (front : List Char) {last : List Char} (h : '.' ∉ last) :
    (front ++ '.' :: last).splitOn '.' = front.splitOn '.' ++ [last] := by
  rw [List.splitOn_eq_splitOnP, List.splitOnP_append_cons front last (by decide),
    ← List.splitOn_eq_splitOnP, ← List.splitOn_eq_splitOnP, splitOn_eq_singleton h]

/-- A name of several parts without its last one. -/
theorem exists_front {name : String} (h : IsName name)
    (hparts : 2 ≤ (name.toList.splitOn '.').length) :
    ∃ front last : String, name = front ++ "." ++ last ∧
      name.toList.splitOn '.' = front.toList.splitOn '.' ++ [last.toList] ∧
      IsName front := by
  have hdot : '.' ∈ name.toList := by
    by_contra hnone
    rw [splitOn_eq_singleton hnone, List.length_singleton] at hparts
    omega
  obtain ⟨front, last, hsplit, hlast⟩ := exists_last_dot hdot
  have hname : name.toList.splitOn '.' = front.splitOn '.' ++ [last] := by
    rw [hsplit, splitOn_append front hlast]
  refine ⟨String.ofList front, String.ofList last, ?_, ?_, ?_⟩
  · rw [← String.toList_inj, hsplit, String.toList_append, String.toList_append,
      String.toList_ofList, String.toList_ofList, String.toList_ofList, List.append_assoc]
    rfl
  · rw [String.toList_ofList, String.toList_ofList, hname]
  · obtain ⟨_, hfew, hall⟩ := h
    rw [hname, List.length_append, List.length_singleton] at hparts hfew
    rw [hname] at hall
    refine ⟨?_, ?_, ?_⟩
    · rw [String.toList_ofList]
      omega
    · rw [String.toList_ofList]
      omega
    · rw [String.toList_ofList]
      exact fun part hpart => hall part (List.mem_append_left _ hpart)

/-- A name is taken just if it follows the grammar. It has one identifier for each part,
below that of the part before it, and without its last part it leads to the same
identifiers but the last. That last one is the name's own, which is also found without
looking at the grammar; where there is none the fault is the same. -/
theorem path_goes_part_by_part (name : String) :
    ((∃ levels, path name = .ok levels) ↔ IsName name) ∧
    (∀ levels, path name = .ok levels →
      levels.length = (name.toList.splitOn '.').length ∧
      (∀ (i : Nat) (part : List Char), (name.toList.splitOn '.')[i]? = some part →
        ∃ above, (root :: levels)[i]? = some above ∧ levels[i]? = some (below above part)) ∧
      (2 ≤ levels.length → ∃ front last : String, name = front ++ "." ++ last ∧
        front.toList.splitOn '.' = (name.toList.splitOn '.').dropLast ∧
        path front = .ok levels.dropLast) ∧
      ∃ leaf, levels.getLast? = some leaf ∧ ofName name = .ok leaf ∧
        ofKnownName name = leaf) ∧
    ∀ e, path name = .error e → ofName name = .error e := by
  refine ⟨⟨fun h => ?_, fun h => ?_⟩, fun levels h => ?_, fun e h => ?_⟩
  · obtain ⟨levels, h⟩ := h
    exact (path_eq_ok.1 h).1
  · exact ⟨_, path_eq_ok.2 ⟨h, rfl⟩⟩
  · obtain ⟨hname, rfl⟩ := path_eq_ok.1 h
    have hlen : (descend root (parts name)).length = (name.toList.splitOn '.').length := by
      rw [length_descend, parts_eq, List.length_map]
    refine ⟨hlen, fun i part hpart => ?_, fun hparts => ?_, ?_⟩
    · have hpart' : (parts name)[i]? = some (String.ofList part) := by
        rw [parts_eq, List.getElem?_map, hpart]
        rfl
      obtain ⟨above, habove, hlevel⟩ := getElem?_descend root hpart'
      rw [child_eq_below] at hlevel
      exact ⟨above, habove, hlevel⟩
    · rw [hlen] at hparts
      obtain ⟨front, last, hcut, hsplit, hfront⟩ := exists_front hname hparts
      refine ⟨front, last, hcut, ?_, path_eq_ok.2 ⟨hfront, ?_⟩⟩
      · rw [hsplit, List.dropLast_concat]
      · obtain ⟨lowest, hlowest⟩ := descend_concat root (parts front) (String.ofList last.toList)
        rw [parts_eq name, hsplit, List.map_append, ← parts_eq, List.map_singleton, hlowest,
          List.dropLast_concat]
    · have hne : descend root (parts name) ≠ [] := by
        rw [← List.length_pos_iff, hlen]
        exact hname.1
      have hleaf : ofName name = .ok ((descend root (parts name)).getLastD root) := by
        rw [ofName, h]
      refine ⟨_, ?_, hleaf, ?_⟩
      · rw [List.getLastD_eq_getLast?, List.getLast?_eq_some_getLast hne]
        rfl
      · exact (ofName_ok hleaf).symm
  · rw [ofName, h]

theorem path_goes_part_by_part_xpx : ∃ levels leaf, path "prx.xpx" = .ok levels ∧
    levels.length = 2 ∧ path "prx" = .ok levels.dropLast ∧ levels.getLast? = some leaf ∧
    ofKnownName "prx.xpx" = leaf := by
  obtain ⟨htaken, hlevels, _⟩ := path_goes_part_by_part "prx.xpx"
  have hparts : checkedParts "prx.xpx" = .ok ["prx", "xpx"] := by decide
  obtain ⟨levels, h⟩ := htaken.2 (checkedParts_ok.1 hparts).1
  obtain ⟨hlen, _, hfront, leaf, hleaf, _, hknown⟩ := hlevels levels h
  have htwo : levels.length = 2 := hlen
  obtain ⟨front, last, hcut, hsplit, hpath⟩ := hfront (Nat.le_of_eq htwo.symm)
  have hprx : front = "prx" := by
    have hjoined : ['.'].intercalate (front.toList.splitOn '.') = front.toList :=
      List.intercalate_splitOn '.'
    rw [← String.toList_inj, ← hjoined, hsplit]
    rfl
  exact ⟨levels, leaf, h, htwo, hprx ▸ hpath, hleaf, hknown⟩

end NamespaceId

end DriveChain
