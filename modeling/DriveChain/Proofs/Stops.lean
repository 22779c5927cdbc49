import DriveChain.Json.Reader

/-!
# Where reading stops

Reading goes from byte to byte and never back, so what it makes of a value depends on
the bytes of the value. It would make the same of them, and stop in the same place, if
the text were cut off there or anywhere behind. It need not if something else followed,
since the end of a number is seen only from the byte behind it; so what may follow is
always a front of what did.

Steps are no matter: a reader that has come to an end had enough of them, and four for
each byte that it passed are always enough. Nothing but the readers of items and of
members spends a step without passing a byte, and what they read in such a step takes
bytes itself.

Every reader is a sequence of others, or one of others behind a byte, so that where it
stops is found by going along its definition. The five readers of values depend on each
other and are gone over together, with one step less for what they call.
-/

namespace DriveChain

namespace Json

variable {ρ σ : Type}

/-! ## Stopping -/

/-- Reading the bytes stops before `rest`, and it would do the same if they were cut off anywhere
behind what it has passed. Four steps for each byte that it passes are enough. -/
def Stops (read : Nat → List UInt8 → ρ) (bytes : List UInt8) (result : List UInt8 → ρ)
    (rest : List UInt8) : Prop :=
  ∃ front, bytes = front ++ rest ∧ ∀ steps more, 4 * front.length ≤ steps → more <+: rest →
    read steps (front ++ more) = result more

theorem stops_here {read : Nat → List UInt8 → ρ} {result : List UInt8 → ρ} {rest : List UInt8}
    (h : ∀ steps more, more <+: rest → read steps more = result more) :
    Stops read rest result rest :=
  ⟨[], rfl, fun steps more _ hmore => h steps more hmore⟩

theorem stops_nil {read : Nat → List UInt8 → ρ} {result : List UInt8 → ρ}
    (h : ∀ steps, read steps [] = result []) : Stops read [] result [] :=
  stops_here fun steps more hmore => by rw [List.prefix_nil.1 hmore, h steps]

theorem stops_done (result : List UInt8 → ρ) (rest : List UInt8) :
    Stops (fun _ => result) rest result rest :=
  stops_here fun _ _ _ => rfl

/-- Some bytes in front, for which there is a step. -/
theorem Stops.behind {read read' : Nat → List UInt8 → ρ} {result : List UInt8 → ρ}
    {bytes rest : List UInt8} (h : Stops read' bytes result rest) (b : UInt8)
    (passed : List UInt8)
    (hread : ∀ steps more, read (steps + 1) (b :: passed ++ more) = read' steps more) :
    Stops read (b :: passed ++ bytes) result rest := by
  obtain ⟨front, rfl, hfront⟩ := h
  refine ⟨b :: passed ++ front, (List.append_assoc ..).symm, fun steps more hsteps hmore => ?_⟩
  rw [List.length_append, List.length_cons] at hsteps
  obtain ⟨steps, rfl⟩ : ∃ n, steps = n + 1 := ⟨steps - 1, by omega⟩
  rw [List.append_assoc, hread]
  exact hfront steps more (by omega) hmore

theorem Stops.cons {read read' : Nat → List UInt8 → ρ} {result : List UInt8 → ρ} {b : UInt8}
    {bytes rest : List UInt8} (h : Stops read' bytes result rest)
    (hread : ∀ steps more, read (steps + 1) (b :: more) = read' steps more) :
    Stops read (b :: bytes) result rest :=
  h.behind b [] hread

theorem Stops.map {read : Nat → List UInt8 → σ} {result : List UInt8 → σ}
    {bytes rest : List UInt8} (h : Stops read bytes result rest) (g : σ → ρ) :
    Stops (fun steps bytes => g (read steps bytes)) bytes (fun more => g (result more)) rest := by
  obtain ⟨front, hbytes, hfront⟩ := h
  exact ⟨front, hbytes, fun steps more hsteps hmore => congrArg g (hfront steps more hsteps hmore)⟩

/-- Only what it makes of the fronts of the bytes counts. -/
theorem Stops.congr {read read' : Nat → List UInt8 → ρ} {result : List UInt8 → ρ}
    {bytes rest : List UInt8} (h : Stops read' bytes result rest)
    (hread : ∀ steps more, more <+: bytes → read steps more = read' steps more) :
    Stops read bytes result rest := by
  obtain ⟨front, rfl, hfront⟩ := h
  refine ⟨front, rfl, fun steps more hsteps hmore => ?_⟩
  rw [hread _ _ ((List.prefix_append_right_inj _).2 hmore)]
  exact hfront steps more hsteps hmore

theorem Stops.trans {read₁ : Nat → List UInt8 → σ} {read₂ read : Nat → List UInt8 → ρ}
    {result₁ : List UInt8 → σ} {result : List UInt8 → ρ} {bytes middle rest : List UInt8}
    (h₁ : Stops read₁ bytes result₁ middle) (h₂ : Stops read₂ middle result rest)
    (hread : ∀ steps whole more, read₁ steps whole = result₁ more →
      read steps whole = read₂ steps more) :
    Stops read bytes result rest := by
  obtain ⟨front₁, rfl, hfront₁⟩ := h₁
  obtain ⟨front₂, rfl, hfront₂⟩ := h₂
  refine ⟨front₁ ++ front₂, (List.append_assoc ..).symm, fun steps more hsteps hmore => ?_⟩
  rw [List.length_append] at hsteps
  have hmiddle : front₂ ++ more <+: front₂ ++ rest := (List.prefix_append_right_inj _).2 hmore
  rw [List.append_assoc, hread _ _ _ (hfront₁ steps _ (by omega) hmiddle)]
  exact hfront₂ steps more (by omega) hmore

theorem Stops.later {read : Nat → List UInt8 → ρ} {result : List UInt8 → ρ}
    {bytes rest : List UInt8} (h : Stops read bytes result rest) :
    Stops (fun steps => read (steps + 1)) bytes result rest := by
  obtain ⟨front, hbytes, hfront⟩ := h
  exact ⟨front, hbytes, fun steps more hsteps hmore =>
    hfront (steps + 1) more (Nat.le_succ_of_le hsteps) hmore⟩

theorem Stops.exists_cons {read : Nat → List UInt8 → ρ} {result : List UInt8 → ρ} {b : UInt8}
    {bytes rest : List UInt8} (h : Stops read (b :: bytes) result rest)
    (hnil : read 0 [] ≠ result []) :
    ∃ front, bytes = front ++ rest ∧ ∀ steps more, 4 * (front.length + 1) ≤ steps →
      more <+: rest → read steps (b :: (front ++ more)) = result more := by
  obtain ⟨front, hbytes, hfront⟩ := h
  cases front with
  | nil => exact absurd (hfront 0 [] (Nat.zero_le _) List.nil_prefix) hnil
  | cons b' front =>
      obtain ⟨rfl, rfl⟩ := List.cons.inj hbytes
      exact ⟨front, rfl, hfront⟩

/-- A front of a list is empty or begins as the list does. -/
theorem forall_prefix_cons {P : List UInt8 → Prop} {b : UInt8} {rest : List UInt8} (hnil : P [])
    (hcons : ∀ more, P (b :: more)) : ∀ more, more <+: b :: rest → P more := by
  intro more hmore
  obtain rfl | ⟨more, rfl, -⟩ := List.prefix_cons_iff.1 hmore
  · exact hnil
  · exact hcons more

/-! ## Blanks and words -/

theorem skipBlanks_stops (bytes : List UInt8) :
    Stops (fun _ => skipBlanks) bytes id (skipBlanks bytes) := by
  induction bytes with
  | nil => exact stops_nil fun _ => rfl
  | cons b bytes ih =>
      by_cases hb : isBlank b
      · have hskip : ∀ more, skipBlanks (b :: more) = skipBlanks more := by
          intro more
          rw [skipBlanks, if_pos hb]
        rw [hskip]
        exact ih.cons fun _ => hskip
      · have hstay : ∀ more, skipBlanks (b :: more) = b :: more := by
          intro more
          rw [skipBlanks, if_neg hb]
        rw [hstay]
        exact stops_here fun _ => forall_prefix_cons rfl hstay

theorem isBlank_of_skipBlanks {bytes rest : List UInt8} {b : UInt8}
    (h : skipBlanks bytes = b :: rest) : isBlank b = false := by
  induction bytes with
  | nil => cases h
  | cons b' bytes ih =>
      rw [skipBlanks] at h
      split at h
      · exact ih h
      · next hb =>
          cases h
          exact Bool.eq_false_iff.2 hb

theorem skipBlanks_cons {b : UInt8} (hb : isBlank b = false) (rest : List UInt8) :
    skipBlanks (b :: rest) = b :: rest := by
  rw [skipBlanks, if_neg (Bool.eq_false_iff.1 hb)]

theorem skipBlanks_skipBlanks (bytes : List UInt8) :
    skipBlanks (skipBlanks bytes) = skipBlanks bytes := by
  cases hbytes : skipBlanks bytes with
  | nil => rfl
  | cons b rest => exact skipBlanks_cons (isBlank_of_skipBlanks hbytes) rest

/-- A reader that begins with passing blanks. -/
theorem Stops.blanks {read : Nat → List UInt8 → ρ} {result : List UInt8 → ρ}
    {bytes rest : List UInt8}
    (hread : ∀ steps bytes, read steps (skipBlanks bytes) = read steps bytes)
    (h : Stops read (skipBlanks bytes) result rest) : Stops read bytes result rest := by
  refine (skipBlanks_stops bytes).trans h fun steps whole more hwhole => ?_
  rw [← hread, show skipBlanks whole = more from hwhole]

theorem readWord_stops {value v : Json} {word bytes rest : List UInt8}
    (h : readWord value word bytes = ⟨v, some rest⟩) :
    Stops (fun _ => readWord value word) bytes (⟨v, some ·⟩) rest := by
  induction word generalizing bytes with
  | nil =>
      cases h
      exact stops_done _ _
  | cons expected word ih =>
      cases bytes with
      | nil => cases h
      | cons b bytes =>
          rw [readWord] at h
          split at h
          · next hb => exact (ih h).cons fun _ more => by rw [readWord, if_pos hb]
          · cases h

/-! ## Numbers -/

theorem spanDigits_stops (bytes : List UInt8) :
    Stops (fun _ => spanDigits) bytes (fun more => ((spanDigits bytes).1, more))
      (spanDigits bytes).2 := by
  induction bytes with
  | nil => exact stops_nil fun _ => rfl
  | cons b bytes ih =>
      cases hb : digit? b with
      | some d =>
          have hspan : ∀ more, spanDigits (b :: more) =
              (d :: (spanDigits more).1, (spanDigits more).2) := by
            intro more
            simp only [spanDigits, hb]
          rw [hspan]
          exact (ih.map fun span => (d :: span.1, span.2)).cons fun _ => hspan
      | none =>
          have hspan : ∀ more, spanDigits (b :: more) = ([], b :: more) := by
            intro more
            simp only [spanDigits, hb]
          rw [hspan]
          exact stops_here fun _ => forall_prefix_cons rfl hspan

theorem lackingDigit_rest (bytes : List UInt8) : (lackingDigit bytes).rest = none := by
  cases bytes <;> rfl

/-- Reads the digits at the front, of which there must be some, and goes on behind them. -/
def readRun (next : List Nat → List UInt8 → Read) (bytes : List UInt8) : Read :=
  match spanDigits bytes with
  | ([], rest) => lackingDigit rest
  | (ds, rest) => next ds rest

theorem readRun_stops {next : List Nat → List UInt8 → Read} {bytes rest : List UInt8} {v : Json}
    (h : readRun next bytes = ⟨v, some rest⟩)
    (hnext : ∀ ds middle, next ds middle = ⟨v, some rest⟩ →
      Stops (fun _ => next ds) middle (⟨v, some ·⟩) rest) :
    Stops (fun _ => readRun next) bytes (⟨v, some ·⟩) rest := by
  have hspan := spanDigits_stops bytes
  unfold readRun at h
  generalize spanDigits bytes = span at h hspan
  obtain ⟨ds, middle⟩ := span
  cases ds with
  | nil =>
      have hnone := lackingDigit_rest middle
      rw [show lackingDigit middle = ⟨v, some rest⟩ from h] at hnone
      cases hnone
  | cons d ds =>
      refine hspan.trans (hnext (d :: ds) middle h) fun _ whole more hwhole => ?_
      simp only [readRun, hwhole]

/-- Reads an exponent behind its sign. -/
def readPower (negative : Bool) (whole : List Nat) (fraction : Option (List Nat)) (down : Bool) :
    List UInt8 → Read :=
  readRun fun ds rest => ⟨ofParts negative whole fraction (some (down, ds)), some rest⟩

section

variable {negative down : Bool} {whole : List Nat} {fraction : Option (List Nat)} {b : UInt8}
  {bytes rest : List UInt8} {v : Json}

theorem readPower_stops (h : readPower negative whole fraction down bytes = ⟨v, some rest⟩) :
    Stops (fun _ => readPower negative whole fraction down) bytes (⟨v, some ·⟩) rest := by
  refine readRun_stops h fun ds middle hmiddle => ?_
  cases hmiddle
  exact stops_done _ _

theorem readExponent_plain (hplus : b ≠ 43) (hminus : b ≠ 45) (more : List UInt8) :
    readExponent negative whole fraction (b :: more) =
      readPower negative whole fraction false (b :: more) := by
  unfold readExponent
  split
  next heq =>
    split at heq
    · next h => exact absurd (List.cons.inj h).1 hplus
    · next h => exact absurd (List.cons.inj h).1 hminus
    · cases heq
      rfl

theorem readExponent_stops (h : readExponent negative whole fraction bytes = ⟨v, some rest⟩) :
    Stops (fun _ => readExponent negative whole fraction) bytes (⟨v, some ·⟩) rest := by
  cases bytes with
  | nil => cases h
  | cons b bytes =>
      by_cases hplus : b = 43
      · subst hplus
        exact (readPower_stops h).cons fun _ _ => rfl
      by_cases hminus : b = 45
      · subst hminus
        exact (readPower_stops h).cons fun _ _ => rfl
      rw [readExponent_plain hplus hminus] at h
      exact (readPower_stops h).congr fun _ =>
        forall_prefix_cons rfl (readExponent_plain hplus hminus)

/-- Reads what may follow all digits in front of an exponent. -/
def readEnd (negative : Bool) (whole : List Nat) (fraction : Option (List Nat)) :
    List UInt8 → Read
  | 101 :: rest => readExponent negative whole fraction rest
  | 69 :: rest => readExponent negative whole fraction rest
  | rest => ⟨ofParts negative whole fraction none, some rest⟩

theorem readEnd_plain (hlower : b ≠ 101) (hupper : b ≠ 69) (more : List UInt8) :
    readEnd negative whole fraction (b :: more) =
      ⟨ofParts negative whole fraction none, some (b :: more)⟩ := by
  unfold readEnd
  split
  · next h => exact absurd (List.cons.inj h).1 hlower
  · next h => exact absurd (List.cons.inj h).1 hupper
  · rfl

theorem readEnd_stops (h : readEnd negative whole fraction bytes = ⟨v, some rest⟩) :
    Stops (fun _ => readEnd negative whole fraction) bytes (⟨v, some ·⟩) rest := by
  cases bytes with
  | nil =>
      cases h
      exact stops_nil fun _ => rfl
  | cons b bytes =>
      by_cases hlower : b = 101
      · subst hlower
        exact (readExponent_stops h).cons fun _ _ => rfl
      by_cases hupper : b = 69
      · subst hupper
        exact (readExponent_stops h).cons fun _ _ => rfl
      rw [readEnd_plain hlower hupper] at h
      cases h
      exact stops_here fun _ => forall_prefix_cons rfl (readEnd_plain hlower hupper)

theorem readTail_point (more : List UInt8) :
    readTail negative whole (46 :: more) =
      readRun (fun ds => readEnd negative whole (some ds)) more := by
  rw [readTail]
  unfold readRun
  generalize spanDigits more = span
  obtain ⟨ds, behind⟩ := span
  cases ds with
  | nil => rfl
  | cons d ds =>
      unfold readEnd
      split <;> simp_all

theorem readTail_plain (hpoint : b ≠ 46) (more : List UInt8) :
    readTail negative whole (b :: more) = readEnd negative whole none (b :: more) := by
  unfold readTail
  split
  · next h => exact absurd (List.cons.inj h).1 hpoint
  · next h =>
      rw [h]
      rfl
  · next h =>
      rw [h]
      rfl
  · next hlower hupper =>
      rw [readEnd_plain (fun h => hlower more (h ▸ rfl)) fun h => hupper more (h ▸ rfl)]

theorem readTail_stops (h : readTail negative whole bytes = ⟨v, some rest⟩) :
    Stops (fun _ => readTail negative whole) bytes (⟨v, some ·⟩) rest := by
  cases bytes with
  | nil =>
      cases h
      exact stops_nil fun _ => rfl
  | cons b bytes =>
      by_cases hpoint : b = 46
      · subst hpoint
        rw [readTail_point] at h
        exact (readRun_stops h fun _ _ => readEnd_stops).cons fun _ => readTail_point
      · rw [readTail_plain hpoint] at h
        exact (readEnd_stops h).congr fun _ => forall_prefix_cons rfl (readTail_plain hpoint)

/-- Reads on behind the digits in front of the point. -/
def readWhole (negative : Bool) (whole : List Nat) (rest : List UInt8) : Read :=
  match whole with
  | 0 :: _ :: _ => .stop .badNumber
  | whole => readTail negative whole rest

theorem readDigits_eq : readDigits negative bytes = readRun (readWhole negative) bytes := by
  unfold readDigits readRun
  generalize spanDigits bytes = span
  obtain ⟨ds, behind⟩ := span
  cases ds with
  | nil => rfl
  | cons d ds =>
      cases d <;> cases ds <;> rfl

theorem readDigits_stops (h : readDigits negative bytes = ⟨v, some rest⟩) :
    Stops (fun _ => readDigits negative) bytes (⟨v, some ·⟩) rest := by
  rw [readDigits_eq] at h
  refine (readRun_stops h fun ds middle hmiddle => ?_).congr fun _ _ _ => readDigits_eq
  unfold readWhole at hmiddle ⊢
  split at hmiddle
  · cases hmiddle
  · exact readTail_stops hmiddle

end

/-! ## Strings -/

namespace Quoted

/-- What stands behind the closing quote. -/
def rest? : Quoted → Option (List UInt8)
  | .text _ rest => some rest
  | .flawed _ _ rest => some rest
  | .stopped _ _ => none

/-- The same with something else behind the closing quote. -/
def withRest (rest : List UInt8) : Quoted → Quoted
  | .text s _ => .text s rest
  | .flawed flaw isUnicode _ => .flawed flaw isUnicode rest
  | .stopped flaw fault => .stopped flaw fault

end Quoted

theorem readQuoted_stops {p : Piece} {bytes rest : List UInt8}
    (h : (readQuoted p bytes).rest? = some rest) :
    Stops (fun _ => readQuoted p) bytes (fun more => (readQuoted p bytes).withRest more) rest := by
  fun_induction readQuoted p bytes with
  | case1 p | case5 p | case7 p | case8 p | case10 p | case11 p => cases h
  | case2 p bytes s hflaw hs =>
      cases h
      refine (stops_done (Quoted.text s) rest).cons fun _ more => ?_
      rw [readQuoted]
      simp only [hs, hflaw]
  | case3 p bytes s flaw hflaw hs =>
      cases h
      refine (stops_done (Quoted.flawed flaw true) rest).cons fun _ more => ?_
      rw [readQuoted]
      simp only [hs, hflaw]
  | case4 p bytes hs =>
      cases h
      refine (stops_done (Quoted.flawed (p.flawNext.getD .badCodePoint) false) rest).cons
        fun _ more => ?_
      rw [readQuoted]
      simp only [hs]
  | case6 p a b c d bytes n hn ih =>
      refine (ih h).behind 92 [117, a, b, c, d] fun _ more => ?_
      show readQuoted p (92 :: 117 :: a :: b :: c :: d :: more) = _
      rw [readQuoted, hn]
  | case9 p b bytes _ hunit c hc ih =>
      refine (ih h).behind 92 [b] fun _ more => ?_
      show readQuoted p (92 :: b :: more) = _
      rw [readQuoted, hc]
      · exact fun _ _ _ _ _ hb _ => hunit hb
      · exact hunit
  | case12 p b bytes hquote hend _ _ hescape hcontrol ih =>
      have hslash : b ≠ 92 := by
        intro hb
        cases bytes with
        | nil => exact hend hb rfl
        | cons b' bytes => exact hescape b' bytes hb rfl
      refine (ih h).cons fun _ more => ?_
      rw [readQuoted, if_neg hcontrol]
      all_goals simp_all

theorem readString_stops {bytes rest : List UInt8} {v : Json}
    (h : readString bytes = ⟨v, some rest⟩) :
    Stops (fun _ => readString) bytes (⟨v, some ·⟩) rest := by
  unfold readString at h
  have hquoted := @readQuoted_stops ⟨[], none, none⟩ bytes
  generalize readQuoted ⟨[], none, none⟩ bytes = quoted at h hquoted
  cases quoted with
  | text s behind =>
      cases h
      refine (hquoted rfl).trans (stops_done _ _) fun _ whole more hwhole => ?_
      simp only [readString, hwhole, Quoted.withRest]
  | flawed flaw isUnicode behind =>
      cases h
      refine (hquoted rfl).trans (stops_done _ _) fun _ whole more hwhole => ?_
      simp only [readString, hwhole, Quoted.withRest]
  | stopped flaw fault => cases flaw <;> cases h

/-! ## Values -/

theorem readValue_skipBlanks (steps : Nat) (bytes : List UInt8) :
    readValue steps (skipBlanks bytes) = readValue steps bytes := by
  cases steps with
  | zero => rfl
  | succ steps => rw [readValue, readValue, skipBlanks_skipBlanks]

theorem readItems_skipBlanks (first : Bool) (steps : Nat) (bytes : List UInt8) :
    readItems steps first (skipBlanks bytes) = readItems steps first bytes := by
  cases steps with
  | zero => rfl
  | succ steps => rw [readItems, readItems, skipBlanks_skipBlanks]

theorem readMembers_skipBlanks (first : Bool) (steps : Nat) (bytes : List UInt8) :
    readMembers steps first (skipBlanks bytes) = readMembers steps first bytes := by
  cases steps with
  | zero => rfl
  | succ steps => rw [readMembers, readMembers, skipBlanks_skipBlanks]

theorem readMember_skipBlanks (steps : Nat) (bytes : List UInt8) :
    readMember steps (skipBlanks bytes) = readMember steps bytes := by
  cases steps with
  | zero => rfl
  | succ steps => rw [readMember, readMember, skipBlanks_skipBlanks]

theorem readMoreMembers_skipBlanks (name : String) (value : Json) (steps : Nat)
    (bytes : List UInt8) :
    readMoreMembers steps name value (some (skipBlanks bytes)) =
      readMoreMembers steps name value (some bytes) := by
  cases steps with
  | zero => rfl
  | succ steps => rw [readMoreMembers, readMoreMembers, skipBlanks_skipBlanks]

/-- Reads what follows an item. -/
def readMoreItems (steps : Nat) (item : Json) (bytes : List UInt8) :
    List Json × Option (List UInt8) :=
  match skipBlanks bytes with
  | 44 :: rest => (item :: (readItems steps false rest).1, (readItems steps false rest).2)
  | 93 :: rest => ([item], some rest)
  | [] => ([item, .unclosed .endInList], none)
  | _ => ([item, .unclosed .noListEnd], none)

theorem readItems_cons {b : UInt8} (hb : isBlank b = false) (hclose : b ≠ 93) (steps : Nat)
    (first : Bool) (bytes : List UInt8) :
    readItems (steps + 1) first (b :: bytes) =
      match readValue steps (b :: bytes) with
      | ⟨item, none⟩ => ([item], none)
      | ⟨item, some rest⟩ => readMoreItems steps item rest := by
  rw [readItems, skipBlanks_cons hb]
  have hne : (b == 93) = false := beq_eq_false_iff_ne.2 hclose
  simp only [hne, Bool.false_eq_true, if_false]
  cases readValue steps (b :: bytes) with
  | mk item rest =>
      cases rest with
      | none => rfl
      | some rest => rfl

/-- Reads what follows a name. -/
def readNamed (steps : Nat) : Quoted → List (String × Json) × Option (List UInt8)
  | .stopped (some flaw) fault => ([("", .misnamed flaw (.broken fault))], none)
  | .stopped none fault => ([("", .unclosed fault)], none)
  | .flawed flaw isUnicode rest =>
    readMoreMembers steps "" (.misnamed flaw (passedString isUnicode (readMember steps rest).value))
      (readMember steps rest).rest
  | .text name rest =>
    readMoreMembers steps name (readMember steps rest).value (readMember steps rest).rest

theorem readMembers_quote (steps : Nat) (first : Bool) (bytes : List UInt8) :
    readMembers (steps + 1) first (34 :: bytes) =
      readNamed steps (readQuoted ⟨[], none, none⟩ bytes) := by
  rw [readMembers, skipBlanks_cons (by decide)]
  simp only [bne_self_eq_false, Bool.false_eq_true, if_false]
  cases readQuoted ⟨[], none, none⟩ bytes with
  | text name rest => rfl
  | flawed flaw isUnicode rest => rfl
  | stopped flaw fault => cases flaw <;> rfl

theorem readMembers_noName {b : UInt8} (hb : isBlank b = false) (hclose : b ≠ 125)
    (hquote : b ≠ 34) (steps : Nat) (first : Bool) (bytes : List UInt8) :
    readMembers (steps + 1) first (b :: bytes) = ([("", .unclosed .noName)], none) := by
  rw [readMembers, skipBlanks_cons hb]
  have hclose' : (b == 125) = false := beq_eq_false_iff_ne.2 hclose
  have hquote' : (b != 34) = true := bne_iff_ne.2 hquote
  simp only [hclose', hquote', Bool.false_eq_true, if_false, if_true]

/-- Within so many steps the readers of values stop where they say. -/
structure Stopping (steps : Nat) : Prop where
  value {bytes rest : List UInt8} {v : Json} : readValue steps bytes = ⟨v, some rest⟩ →
    Stops readValue bytes (⟨v, some ·⟩) rest
  items {first : Bool} {bytes rest : List UInt8} {items : List Json} :
    readItems steps first bytes = (items, some rest) →
      Stops (readItems · first) bytes (items, some ·) rest
  members {first : Bool} {bytes rest : List UInt8} {members : List (String × Json)} :
    readMembers steps first bytes = (members, some rest) →
      Stops (readMembers · first) bytes (members, some ·) rest
  member {bytes rest : List UInt8} {v : Json} : readMember steps bytes = ⟨v, some rest⟩ →
    Stops readMember bytes (⟨v, some ·⟩) rest
  more {name : String} {value : Json} {bytes rest : List UInt8}
    {members : List (String × Json)} :
    readMoreMembers steps name value (some bytes) = (members, some rest) →
      Stops (readMoreMembers · name value <| some ·) bytes (members, some ·) rest

namespace Stopping

variable {steps : Nat} {bytes rest : List UInt8}

theorem value_succ (ih : Stopping steps) {v : Json}
    (h : readValue (steps + 1) bytes = ⟨v, some rest⟩) :
    Stops readValue bytes (⟨v, some ·⟩) rest := by
  refine Stops.blanks readValue_skipBlanks ?_
  rw [readValue] at h
  cases hbytes : skipBlanks bytes with
  | nil =>
      rw [hbytes] at h
      cases h
  | cons b tail =>
      have hb := isBlank_of_skipBlanks hbytes
      rw [hbytes] at h
      dsimp only at h
      split at h
      · next hcode =>
          exact (readWord_stops h).cons fun n more => by
            simp only [readValue, skipBlanks_cons hb, hcode]
      · next hcode =>
          exact (readWord_stops h).cons fun n more => by
            simp only [readValue, skipBlanks_cons hb, hcode]
      · next hcode =>
          exact (readWord_stops h).cons fun n more => by
            simp only [readValue, skipBlanks_cons hb, hcode]
      · next hcode =>
          exact (readString_stops h).cons fun n more => by
            simp only [readValue, skipBlanks_cons hb, hcode]
      · next hcode =>
          exact (readDigits_stops h).cons fun n more => by
            simp only [readValue, skipBlanks_cons hb, hcode]
      · next hcode =>
          cases hitems : readItems steps true tail with
          | mk items behind =>
              rw [hitems] at h
              cases h
              refine ((ih.items hitems).map fun read => Read.mk (.array read.1) read.2).cons
                fun n more => ?_
              rw [readValue, skipBlanks_cons hb]
              simp only [hcode]
      · next hcode =>
          cases hmembers : readMembers steps true tail with
          | mk members behind =>
              rw [hmembers] at h
              cases h
              refine ((ih.members hmembers).map fun read => Read.mk (.object read.1) read.2).cons
                fun n more => ?_
              rw [readValue, skipBlanks_cons hb]
              simp only [hcode]
      · split at h
        · next hnull htrue hfalse hstring hminus hlist hobject hdigit =>
            -- a number is read from its first digit on, which is there whatever is cut off
            obtain ⟨front, rfl, hread⟩ :=
              (readDigits_stops h).exists_cons fun h => (by cases h)
            refine ⟨b :: front, rfl, fun n more hn hmore => ?_⟩
            rw [List.length_cons] at hn
            obtain ⟨n, rfl⟩ : ∃ k, n = k + 1 := ⟨n - 1, by omega⟩
            show readValue (n + 1) (b :: (front ++ more)) = ⟨v, some more⟩
            rw [← hread (n + 1) more hn hmore, readValue, skipBlanks_cons hb]
            simp_all
        · cases h

theorem moreItems (ih : Stopping steps) {item : Json} {items : List Json}
    (h : readMoreItems steps item bytes = (items, some rest)) :
    Stops (readMoreItems · item) bytes (items, some ·) rest := by
  refine Stops.blanks (fun n bytes => ?_) ?_
  · rw [readMoreItems, readMoreItems, skipBlanks_skipBlanks]
  unfold readMoreItems at h
  split at h
  · next tail hcomma =>
      cases hitems : readItems steps false tail with
      | mk items behind =>
          rw [hitems] at h
          cases h
          have hmap := (ih.items hitems).later.map fun read => (item :: read.1, read.2)
          rw [hcomma]
          exact hmap.cons fun n more => rfl
  · next tail hclose =>
      cases h
      rw [hclose]
      exact (stops_done _ _).cons fun n more => rfl
  · cases h
  · cases h

theorem items_succ (ih : Stopping steps) {first : Bool} {items : List Json}
    (h : readItems (steps + 1) first bytes = (items, some rest)) :
    Stops (readItems · first) bytes (items, some ·) rest := by
  refine Stops.blanks (readItems_skipBlanks first) ?_
  rw [← readItems_skipBlanks] at h
  cases hbytes : skipBlanks bytes with
  | nil =>
      rw [hbytes] at h
      cases h
  | cons b tail =>
      have hb := isBlank_of_skipBlanks hbytes
      rw [hbytes] at h
      by_cases hclose : b = 93
      · subst hclose
        cases first with
        | false => cases h
        | true =>
            cases h
            exact (stops_done _ _).cons fun n more => rfl
      · rw [readItems_cons hb hclose] at h
        split at h
        · cases h
        · next item behind hitem =>
            -- both the item and what follows it take bytes, so either may have a step less
            obtain ⟨front, rfl, hread⟩ := (ih.value hitem).exists_cons fun h => (by cases h)
            obtain ⟨front', rfl, hread'⟩ := ih.moreItems h
            have hpos : 0 < front'.length := by
              refine List.length_pos_iff.2 fun hnil => ?_
              subst hnil
              cases hread' 0 [] (Nat.zero_le _) List.nil_prefix
            refine ⟨b :: (front ++ front'), congrArg (b :: ·) (List.append_assoc ..).symm,
              fun n more hn hmore => ?_⟩
            rw [List.length_cons, List.length_append] at hn
            obtain ⟨n, rfl⟩ : ∃ k, n = k + 1 := ⟨n - 1, by omega⟩
            have hmiddle : front' ++ more <+: front' ++ rest :=
              (List.prefix_append_right_inj _).2 hmore
            show readItems (n + 1) first (b :: (front ++ front' ++ more)) = (items, some more)
            rw [readItems_cons hb hclose, List.append_assoc, hread n _ (by omega) hmiddle]
            exact hread' n more (by omega) hmore

theorem member_succ (ih : Stopping steps) {v : Json}
    (h : readMember (steps + 1) bytes = ⟨v, some rest⟩) :
    Stops readMember bytes (⟨v, some ·⟩) rest := by
  refine Stops.blanks readMember_skipBlanks ?_
  rw [readMember] at h
  split at h
  · next tail hcolon =>
      rw [hcolon]
      exact (ih.value h).cons fun n more => rfl
  · cases h
  · cases h

theorem more_succ (ih : Stopping steps) {name : String} {value : Json}
    {members : List (String × Json)}
    (h : readMoreMembers (steps + 1) name value (some bytes) = (members, some rest)) :
    Stops (readMoreMembers · name value <| some ·) bytes (members, some ·) rest := by
  refine Stops.blanks (readMoreMembers_skipBlanks name value) ?_
  rw [readMoreMembers] at h
  split at h
  · next tail hcomma =>
      cases hmembers : readMembers steps false tail with
      | mk members behind =>
          rw [hmembers] at h
          cases h
          have hmap := (ih.members hmembers).map fun read => ((name, value) :: read.1, read.2)
          rw [hcomma]
          exact hmap.cons fun n more => rfl
  · next tail hclose =>
      cases h
      rw [hclose]
      exact (stops_done _ _).cons fun n more => rfl
  · cases h
  · cases h

/-- What is read behind a name, up to the end of the object, whatever is made of the value. -/
theorem behindName (ih : Stopping steps) {name : String} (wrap : Json → Json)
    {members : List (String × Json)}
    (h : readMoreMembers steps name (wrap (readMember steps bytes).value)
      (readMember steps bytes).rest = (members, some rest)) :
    Stops (fun n bytes => readMoreMembers n name (wrap (readMember n bytes).value)
      (readMember n bytes).rest) bytes (members, some ·) rest := by
  cases hmember : readMember steps bytes with
  | mk value behind =>
      rw [hmember] at h
      cases behind with
      | none => cases steps <;> cases h
      | some behind =>
          refine (ih.member hmember).trans (ih.more h) fun n whole more hwhole => ?_
          rw [hwhole]

theorem members_succ (ih : Stopping steps) {first : Bool} {members : List (String × Json)}
    (h : readMembers (steps + 1) first bytes = (members, some rest)) :
    Stops (readMembers · first) bytes (members, some ·) rest := by
  refine Stops.blanks (readMembers_skipBlanks first) ?_
  rw [← readMembers_skipBlanks] at h
  cases hbytes : skipBlanks bytes with
  | nil =>
      rw [hbytes] at h
      cases h
  | cons b tail =>
      have hb := isBlank_of_skipBlanks hbytes
      rw [hbytes] at h
      by_cases hclose : b = 125
      · subst hclose
        cases first with
        | false => cases h
        | true =>
            cases h
            exact (stops_done _ _).cons fun n more => rfl
      by_cases hquote : b = 34
      · subst hquote
        rw [readMembers_quote] at h
        refine Stops.cons ?_ fun n more => readMembers_quote n first more
        have hname := @readQuoted_stops ⟨[], none, none⟩ tail
        generalize readQuoted ⟨[], none, none⟩ tail = quoted at h hname
        cases quoted with
        | text name behind =>
            refine (hname rfl).trans (ih.behindName id h) fun n whole more hwhole => ?_
            simp only [hwhole]
            rfl
        | flawed flaw isUnicode behind =>
            refine (hname rfl).trans
              (ih.behindName (fun v => .misnamed flaw (passedString isUnicode v)) h)
              fun n whole more hwhole => ?_
            simp only [hwhole]
            rfl
        | stopped flaw fault => cases flaw <;> cases h
      · rw [readMembers_noName hb hclose hquote] at h
        cases h

end Stopping

/-- The readers of values stop where they say, however many steps they were given. -/
theorem stopping (steps : Nat) : Stopping steps := by
  induction steps with
  | zero =>
      refine ⟨fun h => ?_, fun h => ?_, fun h => ?_, fun h => ?_, fun h => ?_⟩
      all_goals cases h
  | succ steps ih =>
      exact ⟨ih.value_succ, ih.items_succ, ih.members_succ, ih.member_succ, ih.more_succ⟩

end Json

end DriveChain
