import DriveChain.Drive.Document
import DriveChain.Proofs.Fields
import DriveChain.Proofs.Pool
import DriveChain.Proofs.Slices

/-!
# Pages of drives under every schedule

The entries of a page are mapped side by side, each from its own text. So the page that
is read is the one that mapping the texts one by one gives, or the error about the first
entry that fails, whoever maps which entry when.

What the workers do is known for every mapping. What is to be seen here is that the
values in the place of the entries have texts, and that a drive read from such a text is
the one read from the value.
-/

namespace DriveChain

open Json (Decoder Fields Source)

namespace Json

theorem IsTextOf.decodeText {α : Type} {text : List UInt8} {v : Json} (h : IsTextOf text v)
    (d : Decoder α) : decodeText d text = d .text v := by
  unfold Json.decodeText
  rw [h.ofBytes]
  dsimp only
  cases d .text v with
  | error e => rfl
  | ok a => rfl

/-- The items of an array as they stand, if all of them can be passed over. -/
theorem rawList_ok {source : Source} {value : Json} {values : List Json}
    (h : Decoder.rawList source value = .ok values) :
    value = .array values ∧ passItems values = .ok () := by
  unfold Decoder.rawList Decoder.list at h
  split at h
  · next items =>
      suffices hitems : items = values ∧ passItems items = .ok () by
        obtain ⟨rfl, hpass⟩ := hitems
        exact ⟨rfl, hpass⟩
      induction items generalizing values with
      | nil =>
          cases h
          exact ⟨rfl, rfl⟩
      | cons item items ih =>
          rw [List.mapM_cons] at h
          simp only [except_bind_ok, except_pure_ok] at h
          obtain ⟨item', hitem, items', hitems, rfl⟩ := h
          obtain ⟨rfl, hpass⟩ := ih hitems
          rw [passItems_cons]
          split at hitem
          · cases hitem
          · next hitem' =>
              split at hitem <;> cases hitem
              exact ⟨rfl, hitem', hpass⟩
  · cases h

end Json

namespace DrivePage

/-- The list of entries is a member or an item of a page. -/
theorem entries_of_decoder {root : Json} {values : List Json} {pagination : Pagination}
    (h : decoder .text root = .ok (values, pagination)) :
    Json.passItems values = .ok () ∧
      ((∃ members, root = .object members ∧ ("data", .array values) ∈ members) ∨
        ∃ items, root = .array items ∧ .array values ∈ items) := by
  unfold decoder Fields.record at h
  split at h
  · next members =>
      unfold Fields.ofObject at h
      split at h
      · cases h
      · obtain ⟨make, place, hmake, -, heq⟩ := Fields.ofMembers_seq_ok.1 h
        obtain ⟨entries, hentries, rfl⟩ := Fields.ofMembers_map_ok.1 hmake
        cases heq
        obtain ⟨value, hmem, hvalue⟩ := Fields.ofMembers_required hentries
        obtain ⟨rfl, hpass⟩ := Json.rawList_ok hvalue
        exact ⟨hpass, .inl ⟨members, rfl, hmem⟩⟩
  · next items =>
      split at h
      · cases h
      · next page taken rest hpage =>
          obtain ⟨make, place, middle, behind, hmake, -, heq⟩ := Fields.ofItems_seq_ok hpage
          obtain ⟨entries, hentries, rfl⟩ := Fields.ofItems_map_ok hmake
          split at h <;> cases h
          cases heq
          obtain ⟨item, rfl, hitem⟩ := Fields.ofItems_required hentries
          obtain ⟨rfl, hpass⟩ := Json.rawList_ok hitem
          exact ⟨hpass, .inr ⟨_, rfl, List.mem_cons_self⟩⟩
  · cases h

variable {text : List UInt8} {values : List Json} {pagination : Pagination}

/-- The entries of a page have their texts in it, one behind the other. -/
theorem exists_texts (h : Json.decodeText decoder text = .ok (values, pagination)) :
    ∃ texts, Json.Apart texts text ∧ List.Forall₂ Json.IsTextOf texts values := by
  have hroot : decoder .text (Json.Document.ofBytes text).root = .ok (values, pagination) := by
    unfold Json.decodeText at h
    dsimp only at h
    split at h
    · cases h
    · next hdecoded =>
        split at h <;> cases h
        exact hdecoded
  have hinside : Json.Inside text (Json.Document.ofBytes text).root := by
    refine ⟨4 * text.length + 4, text, List.suffix_refl text, ?_⟩
    unfold Json.Document.ofBytes
    dsimp only
    split <;> rfl
  obtain ⟨hpass, ⟨members, heq, hmem⟩ | ⟨items, heq, hmem⟩⟩ := entries_of_decoder hroot
  · rw [heq] at hinside
    exact (hinside.member hmem not_false).texts hpass
  · rw [heq] at hinside
    exact (hinside.item hmem not_false).texts hpass

theorem ofText_eq_ofJson {network : Network} {text : List UInt8} {value : Json}
    (h : Json.IsTextOf text value) : Drive.ofText network text = Drive.ofJson network value := by
  unfold Drive.ofText Drive.ofJson
  rw [h.decodeText]

theorem map_texts {network : Network} {texts : List (List UInt8)}
    (h : List.Forall₂ Json.IsTextOf texts values) :
    texts.map (Drive.ofText network) = values.map (Drive.ofJson network) := by
  induction h with
  | nil => rfl
  | cons htext _ ih => rw [List.map_cons, List.map_cons, ofText_eq_ofJson htext, ih]

/-- The page that is made of what came of the entries. -/
def ofResult (pagination : Pagination) :
    Except (PageError DriveError) (List Drive) → Except DriveError DrivePage
  | .error e => .error (.entry e.index e.cause)
  | .ok drives => .ok ⟨drives, pagination⟩

theorem ofText_eq_ofResult {network : Network} {texts : List (List UInt8)}
    (h : Json.decodeText decoder text = .ok (values, pagination))
    (htexts : List.Forall₂ Json.IsTextOf texts values) :
    ofText network text = ofResult pagination (Page.map (Drive.ofText network) texts) := by
  unfold ofText Page.map
  rw [h, map_texts htexts]
  dsimp only
  cases Page.collect 0 (values.map (Drive.ofJson network)) with
  | error e => rfl
  | ok drives => rfl

theorem ofResult_ok {result : Except (PageError DriveError) (List Drive)} {page : DrivePage} :
    ofResult pagination result = .ok page ↔
      result = .ok page.drives ∧ page.pagination = pagination := by
  cases result with
  | error e => simp [ofResult]
  | ok drives =>
      cases page
      simp [ofResult, eq_comm]

theorem ofResult_error {result : Except (PageError DriveError) (List Drive)}
    {error : DriveError} :
    ofResult pagination result = .error error ↔
      ∃ index cause, error = .entry index cause ∧ result = .error ⟨index, cause⟩ := by
  cases result with
  | error e =>
      obtain ⟨index, cause⟩ := e
      simp only [ofResult, Except.error.injEq, PageError.mk.injEq]
      refine ⟨fun h => ⟨index, cause, h.symm, rfl, rfl⟩, fun h => ?_⟩
      obtain ⟨_, _, rfl, rfl, rfl⟩ := h
      rfl
  | ok drives => simp [ofResult]

/-- However many workers are asked for and in whatever order they take and finish entries, they map
every entry once, and what they come to is all results in the order of the entries or the first
failure in that order. A page of drives is made of what they come to on the texts of its entries. -/
theorem alike_under_every_schedule (wanted : Nat) :
    (∀ {α β ε : Type} (f : α → Except ε β) (entries : List α),
      Page.Pool.Settles f entries (Page.workers wanted) (Page.map f entries) ∧
        (∀ bs, Page.map f entries = .ok bs ↔ entries.map f = bs.map .ok) ∧
        ∀ index cause, Page.map f entries = .error ⟨index, cause⟩ ↔
          Page.FirstFailure (entries.map f) index cause) ∧
    ∀ (network : Network) (text : List UInt8) (values : List Json) (pagination : Pagination),
      Json.decodeText decoder text = .ok (values, pagination) →
        ∃ texts, Json.Apart texts text ∧ List.Forall₂ Json.IsTextOf texts values ∧
          (∀ schedule p, Page.Pool.Follows (Drive.ofText network) texts (Page.workers wanted)
            (.idle texts) schedule p → p.IsOver →
              ofText network text = ofResult pagination p.result) ∧
          (∀ page, ofText network text = .ok page ↔
            texts.map (Drive.ofText network) = page.drives.map .ok ∧
              page.pagination = pagination) ∧
          ∀ error, ofText network text = .error error ↔ ∃ index cause,
            error = .entry index cause ∧
              Page.FirstFailure (texts.map (Drive.ofText network)) index cause := by
  refine ⟨fun f entries => ⟨?_, fun bs => Page.map_ok, fun index cause => Page.map_error⟩, ?_⟩
  · exact Page.Pool.settles f entries (Page.workers_pos wanted)
  intro network text values pagination h
  obtain ⟨texts, hapart, htexts⟩ := exists_texts h
  have hpage := @ofText_eq_ofResult text values pagination network texts h htexts
  have hsettles := Page.Pool.settles (Drive.ofText network) texts (Page.workers_pos wanted)
  refine ⟨texts, hapart, htexts, fun schedule p hfollows hover => ?_, fun page => ?_,
    fun error => ?_⟩
  · rw [hpage, hsettles.result hfollows hover]
  · rw [hpage, ofResult_ok, Page.map_ok]
  · rw [hpage, ofResult_error]
    simp only [Page.map_error]

/-- Of two numbers in the place of drives the first one is reported, in every order. -/
theorem alike_under_every_schedule_numbers :
    let text : List UInt8 := [91, 91, 55, 44, 56, 93, 44, 91, 50, 44, 48, 44, 50, 44, 49, 93, 93]
    Json.decodeText decoder text = .ok ([.natural 7, .natural 8], ⟨2, 0, 2, 1⟩) ∧
      ∃ (texts : List (List UInt8)) (cause : DriveError), texts.length = 2 ∧
        ∀ schedule p, Page.Pool.Follows (Drive.ofText .mijin) texts (Page.workers 0)
          (.idle texts) schedule p → p.IsOver →
            ofResult ⟨2, 0, 2, 1⟩ p.result = .error (.entry 0 cause) := by
  intro text
  have hdecode : Json.decodeText decoder text =
      .ok ([.natural 7, .natural 8], ⟨2, 0, 2, 1⟩) := rfl
  obtain ⟨cause, hbad⟩ : ∃ cause, ofText .mijin text = .error (.entry 0 cause) := ⟨_, rfl⟩
  obtain ⟨-, hpage⟩ := alike_under_every_schedule 0
  obtain ⟨texts, -, htexts, hruns, -⟩ := hpage .mijin text _ _ hdecode
  refine ⟨hdecode, texts, cause, htexts.length_eq, fun schedule p hfollows hover => ?_⟩
  rw [← hruns schedule p hfollows hover]
  exact hbad

end DrivePage

end DriveChain
