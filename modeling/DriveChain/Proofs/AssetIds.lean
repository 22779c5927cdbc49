import DriveChain.Account.Document
import DriveChain.Proofs.Fields
import DriveChain.Proofs.IdentifierText

/-!
# The bit that tells namespaces from mosaics

Mosaics and namespaces are both named by a number of 64 bits, and the top bit is meant
to say which of the two a number is the name of. For mosaics it does: whatever number
comes in is checked, and an identifier that is derived has the bit cleared. Namespaces
have it as far as they are made from names, since every level of a name sets it.

Namespaces that come as numbers are not checked, whether they are written as digits or
as a pair of words: any number is taken. So the bit tells the two kinds apart among the
identifiers that are derived, and it does so among all of them only as far as those who
write numbers down for namespaces keep to it.
-/

namespace DriveChain

open Json (Decoder)

namespace Identifier

/-- The bit that is set in the identifiers of namespaces. -/
def topBit (id : UInt64) : Bool :=
  id.toNat.testBit 63

theorem topBit_iff {id : UInt64} : topBit id = true ↔ 0x8000000000000000 ≤ id.toNat := by
  have hlt := id.toNat_lt
  rw [topBit, Nat.testBit_eq_decide_div_mod_eq, decide_eq_true_iff]
  omega

theorem topBit_eq_false {id : UInt64} :
    topBit id = false ↔ id.toNat < 0x8000000000000000 := by
  rw [← Bool.not_eq_true, topBit_iff, Nat.not_le]

end Identifier

namespace MosaicId

/-! ## Mosaics -/

/-- The ways in which one comes by the identifier of a mosaic. -/
inductive Obtained : MosaicId → Prop where
  | number {id : UInt64} {m : MosaicId} : ofNumber id = .ok m → Obtained m
  | hex {text : String} {m : MosaicId} : ofHex text = .ok m → Obtained m
  | owner {nonce : UInt32} {key : String} {m : MosaicId} : ofOwner nonce key = .ok m → Obtained m
  | document {source : Json.Source} {value : Json} {m : MosaicId} :
      decoder source value = .ok m → Obtained m

theorem ofNumber_ok {id : UInt64} {m : MosaicId} :
    ofNumber id = .ok m ↔ Identifier.topBit id = false ∧ m = ⟨id⟩ := by
  unfold ofNumber
  rw [Identifier.topBit_eq_false]
  split
  · next hset => simp [Nat.not_lt.2 hset]
  · next hclear => simp [Nat.not_le.1 hclear, eq_comm]

theorem ofHex_ok {text : String} {m : MosaicId} :
    ofHex text = .ok m ↔ Identifier.ofHex text = .ok m.id ∧ Identifier.topBit m.id = false := by
  obtain ⟨id⟩ := m
  unfold ofHex
  cases Identifier.ofHex text with
  | error e => simp
  | ok found =>
      rw [ofNumber_ok]
      refine ⟨fun h => ?_, fun h => ?_⟩
      · obtain ⟨hclear, heq⟩ := h
        cases heq
        exact ⟨rfl, hclear⟩
      · obtain ⟨heq, hclear⟩ := h
        cases heq
        exact ⟨hclear, rfl⟩

theorem topBit_derive (nonce : UInt32) (owner : Key) :
    Identifier.topBit (derive nonce owner).id = false := by
  unfold derive
  generalize Identifier.words _ = words
  obtain ⟨low, high⟩ := words
  have hmask : (high &&& 0x7FFFFFFF).toNat ≤ 0x7FFFFFFF := by
    rw [UInt32.toNat_and]
    exact Nat.and_le_right
  have hlow := low.toNat_lt
  rw [Identifier.topBit_eq_false, Words.toNat_join, UInt32.size]
  omega

theorem obtained_iff {m : MosaicId} : m.Obtained ↔ Identifier.topBit m.id = false := by
  have hnumber : ∀ {id : UInt64}, ofNumber id = .ok m → Identifier.topBit m.id = false := by
    intro id h
    obtain ⟨hclear, rfl⟩ := ofNumber_ok.1 h
    exact hclear
  constructor
  · intro h
    cases h with
    | number h => exact hnumber h
    | hex h => exact (ofHex_ok.1 h).2
    | owner h =>
        unfold ofOwner at h
        simp only [] at h
        split at h
        · cases h
        · split at h
          · cases h
          · cases h
            exact topBit_derive _ _
    | document h =>
        obtain ⟨id, -, hid⟩ := Decoder.check_ok.1 h
        split at hid
        · cases hid
        · next mosaic hmosaic =>
            cases hid
            exact hnumber hmosaic
  · intro h
    exact .number (ofNumber_ok.2 ⟨h, rfl⟩)

end MosaicId

namespace NamespaceId

/-! ## Namespaces -/

/-- The ways in which names lead to the identifiers of namespaces. -/
inductive Named : NamespaceId → Prop where
  | leaf {name : String} {n : NamespaceId} : ofName name = .ok n → Named n
  | level {name : String} {levels : List NamespaceId} {n : NamespaceId} :
      path name = .ok levels → n ∈ levels → Named n
  | known {name : String} : name ∈ wellKnown → Named (ofKnownName name)

/-- The ways in which one comes by the identifier of a namespace. -/
inductive Obtained : NamespaceId → Prop where
  | name {n : NamespaceId} : Named n → Obtained n
  | number (id : UInt64) : Obtained ⟨id⟩
  | words (low high : UInt32) : Obtained ⟨Words.join low high⟩
  | hex {text : String} {n : NamespaceId} : ofHex text = .ok n → Obtained n
  | document {source : Json.Source} {value : Json} {n : NamespaceId} :
      decoder source value = .ok n → Obtained n

theorem ofHex_ok {text : String} {n : NamespaceId} :
    ofHex text = .ok n ↔ Identifier.ofHex text = .ok n.id := by
  obtain ⟨id⟩ := n
  unfold ofHex
  cases Identifier.ofHex text <;> simp

theorem topBit_child (parent : NamespaceId) (part : String) :
    Identifier.topBit (parent.child part).id = true := by
  unfold child
  generalize Identifier.words _ = words
  obtain ⟨low, high⟩ := words
  have hmask : 0x80000000 ≤ (high ||| 0x80000000).toNat := by
    rw [UInt32.toNat_or]
    exact Nat.right_le_or
  rw [Identifier.topBit_iff, Words.toNat_join, UInt32.size]
  omega

theorem topBit_of_mem_descend {parent n : NamespaceId} {parts : List String}
    (h : n ∈ descend parent parts) : Identifier.topBit n.id = true := by
  induction parts generalizing parent with
  | nil => cases h
  | cons part rest ih =>
      rw [descend, List.mem_cons] at h
      obtain rfl | h := h
      · exact topBit_child parent part
      · exact ih h

theorem foldl_child_mem {parts : List String} (h : parts ≠ []) (parent : NamespaceId) :
    parts.foldl child parent ∈ descend parent parts := by
  induction parts generalizing parent with
  | nil => exact absurd rfl h
  | cons part rest ih =>
      rw [descend, List.foldl_cons]
      by_cases hrest : rest = []
      · subst hrest
        exact List.mem_cons_self
      · exact List.mem_cons_of_mem _ (ih hrest _)

/-- The lowest level that parts lead to. -/
theorem getLastD_descend (parent : NamespaceId) (parts : List String) :
    (descend parent parts).getLastD parent = parts.foldl child parent := by
  induction parts generalizing parent with
  | nil => rfl
  | cons part rest ih => rw [descend, List.getLastD_cons, ih, List.foldl_cons]

theorem parts_ne_nil (name : String) : parts name ≠ [] := by
  have hsplit : ∀ text, splitDots text ≠ [] := by
    intro text
    fun_cases splitDots text <;> simp
  exact fun h => hsplit _ (List.map_eq_nil_iff.1 h)

theorem path_ok {name : String} {levels : List NamespaceId} (h : path name = .ok levels) :
    levels = descend root (parts name) := by
  unfold path checkedParts at h
  simp only [] at h
  split at h
  · cases h
  · next ps hps =>
      cases h
      split at hps
      · cases hps
      · split at hps
        · cases hps
        · cases hps
          rfl

theorem ofName_ok {name : String} {n : NamespaceId} (h : ofName name = .ok n) :
    n = ofKnownName name := by
  unfold ofName at h
  split at h
  · cases h
  · next levels hlevels =>
      cases h
      rw [path_ok hlevels, getLastD_descend, ofKnownName]

theorem topBit_of_named {n : NamespaceId} (h : n.Named) : Identifier.topBit n.id = true := by
  have hknown : ∀ name, Identifier.topBit (ofKnownName name).id = true :=
    fun name => topBit_of_mem_descend (foldl_child_mem (parts_ne_nil name) root)
  cases h with
  | leaf h =>
      rw [ofName_ok h]
      exact hknown _
  | level h hmem =>
      rw [path_ok h] at hmem
      exact topBit_of_mem_descend hmem
  | known _ => exact hknown _

/-! ## Both kinds -/

/-- The identifiers of mosaics are the numbers with a clear top bit, and those that
names lead to are none of them. Namespaces that come as digits or as words have any
number at all, and it is told from those of mosaics just if its top bit is set. -/
theorem topBit_tells_named_from_mosaics (n : NamespaceId) :
    (∀ m : MosaicId, m.Obtained ↔ Identifier.topBit m.id = false) ∧
    (n.Named → Identifier.topBit n.id = true) ∧
    (ofHex n.hex = .ok n ∧ ∀ source, decoder source (.ofWord64 n.id) = .ok n) ∧
    ((∀ m : MosaicId, m.Obtained → Identifier.topBit m.id = false ∧
      Identifier.topBit n.id = true ∧ m.id ≠ n.id) ↔ Identifier.topBit n.id = true) := by
  refine ⟨fun m => MosaicId.obtained_iff, topBit_of_named, ⟨?_, fun source => ?_⟩,
    fun hdistinct => ?_, fun hset m hm => ?_⟩
  · rw [ofHex, hex, Identifier.ofHex_hex]
  · exact (Decoder.map_reads NamespaceId.mk (Decoder.pair_reads n.id)).read source
  · by_contra hclear
    have hmosaic : MosaicId.Obtained ⟨n.id⟩ :=
      MosaicId.obtained_iff.2 (Bool.eq_false_iff.2 hclear)
    exact (hdistinct _ hmosaic).2.2 rfl
  · have hclear := MosaicId.obtained_iff.1 hm
    refine ⟨hclear, hset, fun heq => ?_⟩
    rw [heq, hset] at hclear
    cases hclear

theorem topBit_tells_xpx : ∃ n m, path "prx.xpx" = .ok [root.child "prx", n] ∧
    MosaicId.ofHex "00A9C5ED85C52F96" = .ok m ∧ Identifier.topBit m.id = false ∧
    Identifier.topBit n.id = true ∧ m.id ≠ n.id := by
  have hpath : path "prx.xpx" = .ok [root.child "prx", (root.child "prx").child "xpx"] := by
    have hparts : checkedParts "prx.xpx" = .ok ["prx", "xpx"] := by decide
    rw [path, hparts]
    rfl
  have hmosaic : MosaicId.ofHex "00A9C5ED85C52F96" = .ok ⟨0x00A9C5ED85C52F96⟩ := by decide
  obtain ⟨_, hnamed, _, hdistinct⟩ :=
    topBit_tells_named_from_mosaics ((root.child "prx").child "xpx")
  have hset := hnamed (.level hpath (by simp))
  exact ⟨_, _, hpath, hmosaic, hdistinct.2 hset _ (.hex hmosaic)⟩

/-- One is the number of a mosaic and of a namespace. -/
theorem one_is_both : MosaicId.ofHex "0000000000000001" = .ok ⟨1⟩ ∧
    ofHex "0000000000000001" = .ok ⟨1⟩ ∧
    ¬ ∀ (m : MosaicId) (n : NamespaceId), m.Obtained → n.Obtained → n ≠ root →
      Identifier.topBit m.id = false ∧ Identifier.topBit n.id = true ∧ m.id ≠ n.id := by
  have hmosaic : MosaicId.ofHex "0000000000000001" = .ok ⟨1⟩ := by decide
  have hnamespace : ofHex "0000000000000001" = .ok ⟨1⟩ := by decide
  refine ⟨hmosaic, hnamespace, fun h => ?_⟩
  obtain ⟨_, _, hne⟩ := h ⟨1⟩ ⟨1⟩ (.hex hmosaic) (.hex hnamespace) (by decide)
  exact hne rfl

end NamespaceId

namespace Identifier

/-! ## Texts of both kinds -/

/-- What a text is written as once it has been read: its digits in upper case, with a
zero where a sign stood. -/
def IsWrittenAs (text written : String) : Prop :=
  (Hex.IsDigits 16 text → written = text.toUpper) ∧
    ∀ rest, text = "+" ++ rest → written = "0" ++ rest.toUpper

theorem toUpper_zero (rest : String) : ("0" ++ rest).toUpper = "0" ++ rest.toUpper := by
  rw [← String.toList_inj, String.toUpper, String.toList_map, String.toList_append,
    List.map_append, String.toList_append, String.toUpper, String.toList_map]
  rfl

theorem isDigits_zero {rest : String} :
    Hex.IsDigits 16 ("0" ++ rest) ↔ Hex.IsDigits 15 rest := by
  have hzero : Hex.IsDigit '0' := by decide
  have hlist : ("0" ++ rest).toList = '0' :: rest.toList := String.toList_append
  rw [Hex.IsDigits, Hex.IsDigits, hlist, List.length_cons, List.forall_mem_cons]
  simp [hzero]

theorem not_isDigits_plus (count : Nat) (rest : String) :
    ¬ Hex.IsDigits count ("+" ++ rest) := by
  intro h
  have hplus : Hex.IsDigit '+' := h.2 '+' (by rw [String.toList_append]; simp)
  exact absurd hplus (by decide)

theorem isWrittenAs_of_ofHex {text : String} {id : UInt64} (h : ofHex text = .ok id) :
    IsWrittenAs text (hex id) := by
  refine ⟨fun hdigits => ?_, fun rest htext => ?_⟩
  · rcases ofHex_ok.1 h with h | ⟨rest, rfl, _⟩
    · exact h.symm
    · exact absurd hdigits (not_isDigits_plus 16 rest)
  · rcases ofHex_ok.1 h with h | ⟨rest', htext', h⟩
    · rw [htext] at h
      exact absurd (exists_toUpper_eq_hex.1 ⟨id, h⟩) (not_isDigits_plus 16 rest)
    · rw [htext'] at htext
      rw [← (String.append_right_inj "+").1 htext, ← toUpper_zero, h]

theorem exists_ofHex {text : String} :
    (∃ id, ofHex text = .ok id) ↔
      Hex.IsDigits 16 text ∨ ∃ rest, text = "+" ++ rest ∧ Hex.IsDigits 15 rest := by
  simp only [ofHex_ok, exists_or, exists_toUpper_eq_hex]
  refine or_congr_right ⟨fun h => ?_, fun h => ?_⟩
  · obtain ⟨id, rest, htext, h⟩ := h
    exact ⟨rest, htext, isDigits_zero.1 (exists_toUpper_eq_hex.1 ⟨id, h⟩)⟩
  · obtain ⟨rest, htext, h⟩ := h
    obtain ⟨id, h⟩ := exists_toUpper_eq_hex.2 (isDigits_zero.2 h)
    exact ⟨id, rest, htext, h⟩

/-- The reader of identifiers takes sixteen digits in either case, and fifteen behind a
plus sign. Mosaics are read from the same texts, of numbers whose top bit is clear. Both
are written in upper case with leading zeros, and read back from that. -/
theorem ofHex_takes_digits_and_sign (text : String) :
    ((∃ n, NamespaceId.ofHex text = .ok n) ↔
      Hex.IsDigits 16 text ∨ ∃ rest, text = "+" ++ rest ∧ Hex.IsDigits 15 rest) ∧
    (∀ m, MosaicId.ofHex text = .ok m ↔
      NamespaceId.ofHex text = .ok ⟨m.id⟩ ∧ topBit m.id = false) ∧
    (∀ n, NamespaceId.ofHex text = .ok n → IsWrittenAs text n.hex) ∧
    (∀ m, MosaicId.ofHex text = .ok m → IsWrittenAs text m.hex) ∧
    (∀ n, NamespaceId.ofHex n.hex = .ok n) ∧
    ∀ m, MosaicId.ofHex m.hex = .ok m ↔ m.Obtained := by
  refine ⟨?_, fun m => ?_, fun n h => ?_, fun m h => ?_, fun n => ?_, fun m => ?_⟩
  · rw [← exists_ofHex]
    refine ⟨fun h => ?_, fun h => ?_⟩
    · obtain ⟨n, h⟩ := h
      exact ⟨n.id, NamespaceId.ofHex_ok.1 h⟩
    · obtain ⟨id, h⟩ := h
      exact ⟨⟨id⟩, NamespaceId.ofHex_ok.2 h⟩
  · rw [MosaicId.ofHex_ok, NamespaceId.ofHex_ok]
  · exact isWrittenAs_of_ofHex (NamespaceId.ofHex_ok.1 h)
  · exact isWrittenAs_of_ofHex (MosaicId.ofHex_ok.1 h).1
  · exact NamespaceId.ofHex_ok.2 (ofHex_hex n.id)
  · rw [MosaicId.ofHex_ok, MosaicId.obtained_iff]
    exact and_iff_right (ofHex_hex m.id)

theorem ofHex_takes_lower_case : ∃ n, NamespaceId.ofHex "84b3552d375ffa4b" = .ok n ∧
    Hex.IsDigits 16 "84b3552d375ffa4b" ∧ n.hex = "84B3552D375FFA4B" := by
  have hdigits : Hex.IsDigits 16 "84b3552d375ffa4b" := by decide
  obtain ⟨htaken, _, hwritten, _⟩ := ofHex_takes_digits_and_sign "84b3552d375ffa4b"
  obtain ⟨n, hn⟩ := htaken.2 (.inl hdigits)
  have hupper : "84b3552d375ffa4b".toUpper = "84B3552D375FFA4B" := by
    rw [← String.toList_inj, String.toUpper, String.toList_map]
    decide
  refine ⟨n, hn, hdigits, ?_⟩
  rw [(hwritten n hn).1 hdigits, hupper]

/-- A sign and fifteen digits are read, of a namespace and of a mosaic, though they are
not sixteen digits, and they are not what is written. -/
theorem sign_is_read : NamespaceId.ofHex "+000000000000001" = .ok ⟨1⟩ ∧
    MosaicId.ofHex "+000000000000001" = .ok ⟨1⟩ ∧
    ¬ Hex.IsDigits 16 "+000000000000001" ∧
    NamespaceId.hex ⟨1⟩ ≠ "+000000000000001".toUpper ∧
    MosaicId.hex ⟨1⟩ ≠ "+000000000000001".toUpper := by
  have hwritten : hex 1 ≠ "+000000000000001".toUpper := by
    have hupper : "+000000000000001".toUpper = "+000000000000001" := by
      rw [← String.toList_inj, String.toUpper, String.toList_map]
      decide
    rw [hupper]
    decide
  exact ⟨by decide, by decide, by decide, hwritten, hwritten⟩

end Identifier

end DriveChain
