import LastLayer.Proofs.Documents
import Mathlib.Data.List.Basic
import Mathlib.Data.List.Induction

/-!
# No entry is lost

The entries of a group are taken one by one (`CaseGroup.ofEntries_concat`): an entry that is a case
goes behind the cases, and another one goes behind the malformed entries, with its position. Only
these have positions, but the others can be told from them, since an entry whose position is not
taken by a malformed one is a case. So a group accounts for its entries
(`CaseGroup.AccountsFor`), every one of which can be found in it again
(`CaseGroup.AccountsFor.readingAt?_eq`).

A collection is made of the groups that stand in a document, and its cases are those of their
entries that can be read, in the order of the document (`CaseData.cases_ofGroups`).
-/

namespace LastLayer

/-! ## Malformed entries -/

namespace MalformedCase

/-- A malformed case is one of a list of entries if its position, counted from one, is that of an
entry that is no case, for the reason given. -/
def IsOneOf (bad : MalformedCase) (entries : List Json) : Prop :=
  ∃ index entry, bad.position = index + 1 ∧ entries[index]? = some entry ∧
    Case.ofJson entry = .error bad.error

theorem isOneOf_iff {index : Nat} {error : DataError} {entries : List Json} :
    IsOneOf ⟨index + 1, error⟩ entries ↔
      ∃ entry, entries[index]? = some entry ∧ Case.ofJson entry = .error error := by
  constructor
  · rintro ⟨place, entry, hplace, hentry, herror⟩
    obtain rfl : index = place := Nat.succ.inj hplace
    exact ⟨entry, hentry, herror⟩
  · rintro ⟨entry, hentry, herror⟩
    exact ⟨index, entry, rfl, hentry, herror⟩

theorem IsOneOf.position_le {bad : MalformedCase} {entries : List Json} (h : bad.IsOneOf entries) :
    1 ≤ bad.position ∧ bad.position ≤ entries.length := by
  obtain ⟨index, entry, hposition, hentry, -⟩ := h
  have hlt : index < entries.length := (List.getElem?_eq_some_iff.1 hentry).1
  omega

theorem isOneOf_concat_iff {bad : MalformedCase} {entries : List Json} {entry : Json} :
    bad.IsOneOf (entries ++ [entry]) ↔
      bad.IsOneOf entries ∨
        bad.position = entries.length + 1 ∧ Case.ofJson entry = .error bad.error := by
  constructor
  · rintro ⟨index, other, hposition, hother, herror⟩
    rcases Nat.lt_or_ge index entries.length with hlt | hge
    · rw [List.getElem?_append_left hlt] at hother
      exact .inl ⟨index, other, hposition, hother, herror⟩
    · rw [List.getElem?_append_right hge, List.getElem?_singleton,
        Option.ite_none_right_eq_some, Nat.sub_eq_zero_iff_le] at hother
      obtain ⟨hle, hsame⟩ := hother
      rw [hposition, Nat.le_antisymm hle hge, Option.some.inj hsame]
      exact .inr ⟨rfl, herror⟩
  · rintro (⟨index, other, hposition, hother, herror⟩ | ⟨hposition, herror⟩)
    · have hlt : index < entries.length := (List.getElem?_eq_some_iff.1 hother).1
      rw [← List.getElem?_append_left hlt] at hother
      exact ⟨index, other, hposition, hother, herror⟩
    · exact ⟨entries.length, entry, hposition, List.getElem?_concat_length, herror⟩

end MalformedCase

namespace CaseGroup

/-! ## One entry more -/

/-- A group with what has been read of one more entry, which stands at a given position. -/
def add (group : CaseGroup) (position : Nat) : Except DataError Case → CaseGroup
  | .ok entry => { group with cases := group.cases ++ [entry] }
  | .error error => { group with malformed := group.malformed ++ [⟨position, error⟩] }

theorem length_add (group : CaseGroup) (position : Nat) (reading : Except DataError Case) :
    (group.add position reading).cases.length + (group.add position reading).malformed.length =
      group.cases.length + group.malformed.length + 1 := by
  cases reading <;> simp only [add, List.length_append, List.length_singleton] <;> omega

theorem ofEntries_concat (name : String) (entries : List Json) (entry : Json) :
    ofEntries name (entries ++ [entry]) =
      (ofEntries name entries).add (entries.length + 1) (Case.ofJson entry) := by
  simp only [ofEntries, List.filterMap_append, List.zipIdx_append, List.zipIdx_singleton,
    List.filterMap_cons, List.filterMap_nil, malformedEntry?, Nat.add_comm 1]
  cases Case.ofJson entry <;> simp [add, Except.toOption]

/-! ## Accounting for entries -/

/-- The places, counted from zero, of the entries that are not among the malformed ones. -/
def caseIndices (group : CaseGroup) : List Nat :=
  (List.range (group.cases.length + group.malformed.length)).filter fun index =>
    index + 1 ∉ group.malformed.map MalformedCase.position

/-- The case that an entry is, if there is an entry at a place and it is a case. -/
def caseAt? (entries : List Json) (index : Nat) : Option Case :=
  entries[index]?.bind fun entry => (Case.ofJson entry).toOption

theorem caseAt?_eq_some_iff {entries : List Json} {index : Nat} {entry : Case} :
    caseAt? entries index = some entry ↔
      ∃ value, entries[index]? = some value ∧ Case.ofJson value = .ok entry := by
  rw [caseAt?, Option.bind_eq_some_iff]
  refine exists_congr fun value => and_congr_right fun _ => ?_
  cases Case.ofJson value <;> simp [Except.toOption]

/-- A group accounts for a list of entries if nothing is lost and everything is in order: the
malformed entries are those that are no cases, and the others are the cases. -/
structure AccountsFor (group : CaseGroup) (entries : List Json) : Prop where
  length_eq : group.cases.length + group.malformed.length = entries.length
  pairwise_position : (group.malformed.map MalformedCase.position).Pairwise (· < ·)
  mem_malformed_iff : ∀ bad, bad ∈ group.malformed ↔ bad.IsOneOf entries
  cases_eq : group.cases.map some = group.caseIndices.map (caseAt? entries)

namespace AccountsFor

variable {group : CaseGroup} {entries : List Json} (h : group.AccountsFor entries)

include h

theorem position_notMem {position : Nat} (hposition : entries.length < position) :
    position ∉ group.malformed.map MalformedCase.position := by
  rintro hmem
  obtain ⟨bad, hbad, rfl⟩ := List.mem_map.1 hmem
  exact absurd ((h.mem_malformed_iff bad).1 hbad).position_le.2 (Nat.not_le.2 hposition)

theorem lt_of_mem_caseIndices {index : Nat} (hindex : index ∈ group.caseIndices) :
    index < entries.length := by
  rw [← h.length_eq]
  exact List.mem_range.1 (List.mem_filter.1 hindex).1

theorem length_caseIndices : group.caseIndices.length = group.cases.length := by
  have hlength := congrArg List.length h.cases_eq
  rwa [List.length_map, List.length_map, eq_comm] at hlength

/-- What is known of entries is not changed by an entry behind them. -/
theorem map_caseAt?_concat (entry : Json) :
    group.caseIndices.map (caseAt? (entries ++ [entry])) =
      group.caseIndices.map (caseAt? entries) := by
  refine List.map_congr_left fun index hindex => ?_
  rw [caseAt?, caseAt?, List.getElem?_append_left (h.lt_of_mem_caseIndices hindex)]

theorem caseIndices_add_ok (entry : Case) :
    (group.add (entries.length + 1) (.ok entry)).caseIndices =
      group.caseIndices ++ [entries.length] := by
  have hlast : entries.length + 1 ∉ group.malformed.map MalformedCase.position :=
    h.position_notMem (Nat.lt_succ_self entries.length)
  -- the new place is taken by no malformed entry, so it joins the places of the cases
  rw [caseIndices, length_add, h.length_eq, add, List.range_succ, List.filter_append, caseIndices,
    h.length_eq, List.filter_singleton, decide_eq_true hlast, cond_true]

theorem caseIndices_add_error (error : DataError) :
    (group.add (entries.length + 1) (.error error)).caseIndices = group.caseIndices := by
  let bad : MalformedCase := ⟨entries.length + 1, error⟩
  have hlast : ¬ entries.length + 1 ∉ (group.malformed ++ [bad]).map MalformedCase.position := by
    simp [bad]
  have hearlier : ∀ index ∈ List.range entries.length,
      index + 1 ∉ (group.malformed ++ [bad]).map MalformedCase.position ↔
        index + 1 ∉ group.malformed.map MalformedCase.position := by
    intro index hindex
    have hne : index ≠ entries.length := Nat.ne_of_lt (List.mem_range.1 hindex)
    simp [bad, hne]
  -- the new place is taken, and the earlier ones are taken if they were
  rw [caseIndices, length_add, h.length_eq, add, List.range_succ, List.filter_append, caseIndices,
    h.length_eq, List.filter_singleton, decide_eq_false hlast, cond_false, List.append_nil]
  exact List.filter_congr fun index hindex => decide_eq_decide.2 (hearlier index hindex)

/-- An entry that is a case goes behind the cases. -/
theorem add_ok {value : Json} {entry : Case} (hread : Case.ofJson value = .ok entry) :
    (group.add (entries.length + 1) (.ok entry)).AccountsFor (entries ++ [value]) where
  length_eq := by
    rw [length_add, h.length_eq, List.length_append, List.length_singleton]
  pairwise_position := h.pairwise_position
  mem_malformed_iff bad := by
    -- the new entry is not malformed
    have hnone : ¬ (bad.position = entries.length + 1 ∧ Case.ofJson value = .error bad.error) := by
      rw [hread]
      rintro ⟨-, ⟨⟩⟩
    rw [MalformedCase.isOneOf_concat_iff, or_iff_left hnone]
    exact h.mem_malformed_iff bad
  cases_eq := by
    have hlast : caseAt? (entries ++ [value]) entries.length = some entry := by
      rw [caseAt?, List.getElem?_concat_length, Option.bind_some, hread]
      rfl
    rw [h.caseIndices_add_ok, List.map_append, h.map_caseAt?_concat, ← h.cases_eq, add,
      List.map_append, List.map_singleton, List.map_singleton, hlast]

/-- An entry that is no case goes behind the malformed entries. -/
theorem add_error {value : Json} {error : DataError} (hread : Case.ofJson value = .error error) :
    (group.add (entries.length + 1) (.error error)).AccountsFor (entries ++ [value]) where
  length_eq := by
    rw [length_add, h.length_eq, List.length_append, List.length_singleton]
  pairwise_position := by
    rw [add, List.map_append, List.pairwise_append]
    -- all positions so far lie within the entries so far, and the new one behind them
    refine ⟨h.pairwise_position, List.pairwise_singleton _ _, ?_⟩
    intro position hposition last hlast
    obtain ⟨bad, hbad, rfl⟩ := List.mem_map.1 hposition
    rw [List.map_singleton, List.mem_singleton] at hlast
    rw [hlast]
    exact Nat.lt_succ_of_le ((h.mem_malformed_iff bad).1 hbad).position_le.2
  mem_malformed_iff bad := by
    rw [MalformedCase.isOneOf_concat_iff, add, List.mem_append, h.mem_malformed_iff,
      List.mem_singleton, hread]
    refine or_congr_right ⟨?_, ?_⟩
    · rintro rfl
      exact ⟨rfl, rfl⟩
    · obtain ⟨position, reason⟩ := bad
      rintro ⟨rfl, ⟨⟩⟩
      rfl
  cases_eq := by
    rw [h.caseIndices_add_error, h.map_caseAt?_concat, ← h.cases_eq, add]

end AccountsFor

theorem accountsFor_ofEntries (name : String) (entries : List Json) :
    (ofEntries name entries).AccountsFor entries := by
  induction entries using List.reverseRecOn with
  | nil =>
    refine ⟨rfl, List.Pairwise.nil, fun bad => iff_of_false List.not_mem_nil ?_, rfl⟩
    rintro ⟨_, _, -, ⟨⟩, -⟩
  | append_singleton entries value ih =>
    rw [ofEntries_concat]
    cases hread : Case.ofJson value with
    | ok entry => exact ih.add_ok hread
    | error error => exact ih.add_error hread

/-! ## Finding entries again -/

/-- What the entry at a place, counted from zero, has been read as, as far as the group tells. -/
def readingAt? (group : CaseGroup) (index : Nat) : Option (Except DataError Case) :=
  match group.malformed.find? (·.position = index + 1) with
  | some bad => some (.error bad.error)
  | none => group.cases[group.caseIndices.idxOf index]?.map .ok

namespace AccountsFor

variable {group : CaseGroup} {entries : List Json} (h : group.AccountsFor entries)

include h

/-- The cases are the entries at the other places, in order. -/
theorem getElem?_cases_eq_some_iff {place : Nat} {entry : Case} :
    group.cases[place]? = some entry ↔ ∃ index value, group.caseIndices[place]? = some index ∧
      entries[index]? = some value ∧ Case.ofJson value = .ok entry := by
  have hplace : group.cases[place]?.map some = group.caseIndices[place]?.map (caseAt? entries) := by
    rw [← List.getElem?_map, h.cases_eq, List.getElem?_map]
  have hsome : group.cases[place]? = some entry ↔
      group.cases[place]?.map some = some (some entry) := by
    rw [Option.map_eq_some_iff]
    simp only [Option.some_inj, exists_eq_right]
  rw [hsome, hplace, Option.map_eq_some_iff]
  simp only [caseAt?_eq_some_iff, exists_and_left]

theorem mem_caseIndices_iff {index : Nat} :
    index ∈ group.caseIndices ↔
      index < entries.length ∧ index + 1 ∉ group.malformed.map MalformedCase.position := by
  rw [caseIndices, List.mem_filter, List.mem_range, h.length_eq, decide_eq_true_iff]

/-- The malformed entry with a given position is the one that is no case. -/
theorem find?_malformed_eq_some {index : Nat} {value : Json} {error : DataError}
    (hvalue : entries[index]? = some value) (hread : Case.ofJson value = .error error) :
    group.malformed.find? (·.position = index + 1) = some ⟨index + 1, error⟩ := by
  have hmem : ⟨index + 1, error⟩ ∈ group.malformed :=
    (h.mem_malformed_iff _).2 ⟨index, value, rfl, hvalue, hread⟩
  cases hfind : group.malformed.find? (·.position = index + 1) with
  | none => exact absurd (decide_eq_true rfl) (List.find?_eq_none.1 hfind _ hmem)
  | some bad =>
    have hposition : bad.position = index + 1 := by simpa using List.find?_some hfind
    -- no other entry has this position
    obtain ⟨place, other, hplace, hother, herror⟩ :=
      (h.mem_malformed_iff bad).1 (List.mem_of_find?_eq_some hfind)
    obtain rfl : index = place := Nat.succ.inj (hposition.symm.trans hplace)
    obtain rfl : value = other := Option.some.inj (hvalue.symm.trans hother)
    rw [hread] at herror
    rw [Except.error.inj herror, ← hposition]

theorem find?_malformed_eq_none {index : Nat}
    (hindex : ∀ value error, entries[index]? = some value → Case.ofJson value ≠ .error error) :
    group.malformed.find? (·.position = index + 1) = none := by
  rw [List.find?_eq_none]
  intro bad hbad hposition
  obtain ⟨place, value, hplace, hvalue, herror⟩ := (h.mem_malformed_iff bad).1 hbad
  obtain rfl : place = index := Nat.succ.inj (hplace.symm.trans (of_decide_eq_true hposition))
  exact hindex value bad.error hvalue herror

/-- Every entry can be found in its group, and is read there as it is read by itself. -/
theorem readingAt?_eq (index : Nat) :
    group.readingAt? index = entries[index]?.map Case.ofJson := by
  rw [readingAt?]
  cases hvalue : entries[index]? with
  | none =>
    have hnone : group.malformed.find? (·.position = index + 1) = none :=
      h.find?_malformed_eq_none fun value error hsome => by rw [hvalue] at hsome; cases hsome
    have hnotMem : index ∉ group.caseIndices := fun hmem =>
      absurd (h.lt_of_mem_caseIndices hmem) (Nat.not_lt.2 (List.getElem?_eq_none_iff.1 hvalue))
    rw [hnone, List.idxOf_eq_length hnotMem, h.length_caseIndices, List.getElem?_length]
    rfl
  | some value =>
    cases hread : Case.ofJson value with
    | error error =>
      rw [h.find?_malformed_eq_some hvalue hread, Option.map_some, hread]
    | ok entry =>
      have hnone : group.malformed.find? (·.position = index + 1) = none := by
        refine h.find?_malformed_eq_none fun other error hother => ?_
        rw [← Option.some.inj (hvalue.symm.trans hother), hread]
        rintro ⟨⟩
      have hposition : index + 1 ∉ group.malformed.map MalformedCase.position := by
        rintro hmem
        obtain ⟨bad, hbad, hsame⟩ := List.mem_map.1 hmem
        exact List.find?_eq_none.1 hnone bad hbad (decide_eq_true hsame)
      have hmem : index ∈ group.caseIndices :=
        h.mem_caseIndices_iff.2 ⟨(List.getElem?_eq_some_iff.1 hvalue).1, hposition⟩
      have hcase : group.cases[group.caseIndices.idxOf index]? = some entry :=
        h.getElem?_cases_eq_some_iff.2 ⟨index, value, List.getElem?_idxOf hmem, hvalue, hread⟩
      rw [hnone, hcase, Option.map_some, Option.map_some, hread]

end AccountsFor

/-- Another entry in one place changes no reading of an entry in another place. -/
theorem readingAt?_ofEntries_set (name : String) (entries : List Json) (value : Json)
    {changed index : Nat} (h : index ≠ changed) :
    (ofEntries name (entries.set changed value)).readingAt? index =
      (ofEntries name entries).readingAt? index := by
  rw [(accountsFor_ofEntries name _).readingAt?_eq,
    (accountsFor_ofEntries name entries).readingAt?_eq, List.getElem?_set_ne h.symm]

/-- Without one of the entries the others are read as they were, those behind it one place
earlier. -/
theorem readingAt?_ofEntries_eraseIdx (name : String) (entries : List Json) (removed index : Nat) :
    (ofEntries name (entries.eraseIdx removed)).readingAt? index =
      (ofEntries name entries).readingAt? (if index < removed then index else index + 1) := by
  rw [(accountsFor_ofEntries name _).readingAt?_eq,
    (accountsFor_ofEntries name entries).readingAt?_eq, List.getElem?_eraseIdx,
    apply_ite (entries[·]?)]

end CaseGroup

/-! ## Collections -/

namespace CaseData

/-- All entries of some groups, in the order of the document, each with its group. -/
def documentEntries (groups : List (String × List Json)) : List (CaseGroup × Json) :=
  groups.flatMap fun group => group.2.map fun entry => (.ofEntries group.1 group.2, entry)

/-- The cases of a collection are its entries without those that cannot be read. -/
theorem cases_ofGroups (groups : List (String × List Json)) :
    (ofGroups groups).cases = (documentEntries groups).filterMap fun member =>
      (Case.ofJson member.2).toOption.map fun entry => (member.1, entry) := by
  rw [cases, ofGroups, documentEntries, List.flatMap_map, List.filterMap_flatMap]
  refine List.flatMap_congr fun group _ => ?_
  rw [List.filterMap_map]
  exact List.map_filterMap

/-- A group keeps all of its entries: there are as many cases and malformed entries as there are
entries; the positions of the malformed ones increase and lie within the group, and they are those
of the entries that are no cases, each with its own error; and the cases are the entries at the
other places, in order. So every entry can be found in the group as it is read by itself, and
changing or removing one entry changes no reading of another one. A collection that can be read is
made of the groups that stand in the document, and its cases are the entries of all groups that can
be read, in the order of the document, each with its own group. -/
theorem entries_kept_in_order (name : String) (entries : List Json) :
    let group := CaseGroup.ofEntries name entries
    (group.cases.length + group.malformed.length = entries.length) ∧
    ((group.malformed.map MalformedCase.position).Pairwise (· < ·) ∧
      ∀ bad ∈ group.malformed, 1 ≤ bad.position ∧ bad.position ≤ entries.length) ∧
    (∀ index error, ⟨index + 1, error⟩ ∈ group.malformed ↔
      ∃ value, entries[index]? = some value ∧ Case.ofJson value = .error error) ∧
    (∀ (place : Nat) (entry : Case), group.cases[place]? = some entry ↔
      ∃ (index : Nat) (value : Json), group.caseIndices[place]? = some index ∧
        entries[index]? = some value ∧ Case.ofJson value = .ok entry) ∧
    (∀ index, group.readingAt? index = entries[index]?.map Case.ofJson) ∧
    (∀ changed value index, index ≠ changed →
      (CaseGroup.ofEntries name (entries.set changed value)).readingAt? index =
        group.readingAt? index) ∧
    (∀ removed index, (CaseGroup.ofEntries name (entries.eraseIdx removed)).readingAt? index =
      group.readingAt? (if index < removed then index else index + 1)) ∧
    (∀ text data, parse text = .ok data → ∃ tree groups, Json.Tree.parse? text = some tree ∧
      List.Forall₂ StandsIn groups (groupTrees tree) ∧ data = ofGroups groups) ∧
    ∀ groups, (ofGroups groups).cases = (documentEntries groups).filterMap fun member =>
      (Case.ofJson member.2).toOption.map fun entry => (member.1, entry) := by
  intro group
  have h : group.AccountsFor entries := CaseGroup.accountsFor_ofEntries name entries
  refine ⟨h.length_eq, ⟨h.pairwise_position, ?_⟩, ?_, ?_, h.readingAt?_eq, ?_, ?_, ?_,
    cases_ofGroups⟩
  · intro bad hbad
    exact ((h.mem_malformed_iff bad).1 hbad).position_le
  · intro index error
    rw [h.mem_malformed_iff, MalformedCase.isOneOf_iff]
  · intro place entry
    exact h.getElem?_cases_eq_some_iff
  · intro changed value index hindex
    exact CaseGroup.readingAt?_ofEntries_set name entries value hindex
  · intro removed index
    exact CaseGroup.readingAt?_ofEntries_eraseIdx name entries removed index
  · intro text data hparse
    exact exists_standsIn_of_parse hparse

/-- A string among the entries is no case. The entry behind it is the second case, and is read as
before if the string is replaced or taken out. -/
theorem entries_kept_in_order_around_string :
    let entries : List Json := [.array [.ofInt 1], .string "no case", .array [.ofInt 2]]
    let group := CaseGroup.ofEntries "Dot" entries
    (∃ bad ∈ group.malformed, bad.position = 2) ∧
      (∃ entry, group.cases[1]? = some entry ∧ entry.title = "OLL 2" ∧
        group.readingAt? 2 = some (.ok entry) ∧
        (CaseGroup.ofEntries "Dot" (entries.set 1 (.array []))).readingAt? 2 = some (.ok entry) ∧
        (CaseGroup.ofEntries "Dot" (entries.eraseIdx 1)).readingAt? 1 = some (.ok entry)) ∧
      ∃ data tree groups, parse "[[[\"Dot\",[[1],\"no case\",[2]]]]]" = .ok data ∧
        Json.Tree.parse? "[[[\"Dot\",[[1],\"no case\",[2]]]]]" = some tree ∧
        List.Forall₂ StandsIn groups (groupTrees tree) ∧ data = ofGroups groups := by
  intro entries group
  obtain ⟨-, -, hmalformed, hcases, hreading, hset, herase, hparse, -⟩ :=
    entries_kept_in_order "Dot" entries
  have hread : group.readingAt? 2 = some (Case.ofJson (.array [.ofInt 2])) := hreading 2
  have hindices : group.caseIndices = [0, 2] := by decide
  refine ⟨⟨_, (hmalformed 1 _).2 ⟨.string "no case", rfl, rfl⟩, rfl⟩,
    ⟨_, (hcases 1 _).2 ⟨2, .array [.ofInt 2], ?_, rfl, rfl⟩, ?_, hread, ?_, ?_⟩, ?_⟩
  · rw [hindices]
    rfl
  · rfl
  · rw [hset 1 (.array []) 2 (by decide)]
    exact hread
  · exact (herase 1 1).trans hread
  · have hreadable : (parse "[[[\"Dot\",[[1],\"no case\",[2]]]]]").toOption.isSome = true := by
      decide +kernel
    cases hdata : parse "[[[\"Dot\",[[1],\"no case\",[2]]]]]" with
    | error error =>
      rw [hdata] at hreadable
      cases hreadable
    | ok data =>
      obtain ⟨tree, groups, htree, hstand, hgroups⟩ := hparse _ data hdata
      exact ⟨data, tree, groups, rfl, htree, hstand, hgroups⟩

end CaseData

end LastLayer
