import LastLayer.CaseData.Reader
import Mathlib.Data.List.Forall2

/-!
# What a document holds

A collection, and each of its groups, stands in a document as an object or as an array, and what it
holds is the value of a key or the item in the key's place (`CaseData.field?`). The members of an
object are read from front to back, and a known key is taken up once (`CaseData.TakesUpOnce`), so
what is found in the end is what the object holds under the key
(`CaseData.TakesUpOnce.foldlM_eq_ok`).

So a document that can be read is a list of groups with names and entries
(`CaseData.StandsIn`), and the collection is made of these, in the order of the document
(`CaseData.exists_standsIn_of_parse`).
-/

namespace LastLayer.CaseData

open Json (Piece Tree)

/-! ## Steps that succeed -/

section Except

variable {α β ε : Type}

theorem exists_of_bind_eq_ok {result : Except ε α} {next : α → Except ε β} {b : β}
    (h : result >>= next = .ok b) : ∃ a, result = .ok a ∧ next a = .ok b := by
  cases result with
  | error error => cases h
  | ok a => exact ⟨a, rfl, h⟩

theorem forall₂_of_mapM_eq_ok {f : α → Except ε β} {as : List α} {bs : List β}
    (h : as.mapM f = .ok bs) : List.Forall₂ (fun a b => f a = .ok b) as bs := by
  induction as generalizing bs with
  | nil =>
    cases h
    exact .nil
  | cons a as ih =>
    rw [List.mapM_cons] at h
    obtain ⟨b, hb, h⟩ := exists_of_bind_eq_ok h
    obtain ⟨rest, hrest, ⟨⟩⟩ := exists_of_bind_eq_ok h
    exact .cons hb (ih hrest)

end Except

/-! ## The members of an object -/

/-- The value of the first member with a given key. -/
def firstMember? (key : String) (members : List (List Piece × Tree)) : Option Tree :=
  (members.find? fun member => Piece.text? member.1 = some key).map Prod.snd

/-- What an object holds under a key, or an array in the place of the key. -/
def field? (key : String) (place : Nat) : Tree → Option Tree
  | .object members => firstMember? key members
  | .array items => items[place]?
  | _ => none

/-- A step over the members of an object takes up a key once: what it has found under the key
changes at a member with this key only, and only if nothing has been found before. -/
def TakesUpOnce {σ α : Type} (step : σ → List Piece × Tree → Except ReadError σ)
    (found : σ → Option α) (key : String) (read : Tree → Except ReadError α) : Prop :=
  ∀ state member next, step state member = .ok next →
    if Piece.text? member.1 = some key then
      found state = none ∧ ∃ a, read member.2 = .ok a ∧ found next = some a
    else found next = found state

theorem readOnce_eq_ok {α : Type} {key : String} {previous next : Option α}
    {read : Except ReadError α} (h : readOnce key previous read = .ok next) :
    previous = none ∧ ∃ a, read = .ok a ∧ next = some a := by
  cases previous with
  | some a => cases h
  | none =>
    cases read with
    | error error => cases h
    | ok a =>
      cases h
      exact ⟨rfl, a, rfl, rfl⟩

theorem orMalformed_eq_ok {α : Type} {value : Option α} {a : α} (h : orMalformed value = .ok a) :
    value = some a := by
  cases value with
  | none => cases h
  | some b =>
    cases h
    rfl

namespace TakesUpOnce

variable {σ α : Type} {step : σ → List Piece × Tree → Except ReadError σ} {found : σ → Option α}
  {key : String} {read : Tree → Except ReadError α}

/-- A run over the members of an object finds what is read under the key, unless something was found
before. -/
theorem foldlM_eq_ok (h : TakesUpOnce step found key read) {members : List (List Piece × Tree)}
    {state next : σ} (hrun : members.foldlM step state = .ok next) :
    (found next).map Except.ok =
      ((found state).map Except.ok).or ((firstMember? key members).map read) := by
  induction members generalizing state with
  | nil =>
    cases hrun
    exact (Option.or_none).symm
  | cons member members ih =>
    rw [List.foldlM_cons] at hrun
    obtain ⟨middle, hmiddle, hrest⟩ := exists_of_bind_eq_ok hrun
    have hstep := h state member middle hmiddle
    rw [ih hrest]
    by_cases hkey : Piece.text? member.1 = some key
    · -- the key is taken up here, and no member behind this one changes what has been found
      rw [if_pos hkey] at hstep
      obtain ⟨hnone, a, hread, hfound⟩ := hstep
      simp [firstMember?, hkey, hnone, hread, hfound]
    · rw [if_neg hkey] at hstep
      simp [firstMember?, hkey, hstep]

/-- A run that starts with nothing ends with what the object holds, or with nothing. -/
theorem elim_field? (h : TakesUpOnce step found key read) {members : List (List Piece × Tree)}
    {state next : σ} (hrun : members.foldlM step state = .ok next) (hstate : found state = none)
    (place : Nat) (missing : α) :
    (field? key place (.object members)).elim (.ok missing) read =
      .ok ((found next).getD missing) := by
  have hfound := h.foldlM_eq_ok hrun
  rw [hstate, Option.map_none, Option.none_or] at hfound
  change (firstMember? key members).elim (.ok missing) read = _
  cases hmember : firstMember? key members with
  | none =>
    rw [hmember, Option.map_none, Option.map_eq_none_iff] at hfound
    rw [hfound]
    rfl
  | some tree =>
    rw [hmember, Option.map_some, Option.map_eq_some_iff] at hfound
    obtain ⟨a, ha, hread⟩ := hfound
    rw [ha, Option.elim_some, ← hread]
    rfl

end TakesUpOnce

theorem readGroupMember_name : TakesUpOnce readGroupMember Prod.fst "name" readName := by
  rintro state member next h
  obtain ⟨key, hkey, h⟩ := exists_of_bind_eq_ok h
  rw [orMalformed_eq_ok hkey]
  split at h
  next hname =>
    subst hname
    obtain ⟨found, hfound, ⟨⟩⟩ := exists_of_bind_eq_ok h
    rw [if_pos rfl]
    exact readOnce_eq_ok hfound
  next hname =>
    rw [if_neg (mt Option.some.inj hname)]
    split at h
    · obtain ⟨found, -, ⟨⟩⟩ := exists_of_bind_eq_ok h
      rfl
    · cases h
      rfl

theorem readGroupMember_cases : TakesUpOnce readGroupMember Prod.snd "cases" readEntries := by
  rintro state member next h
  obtain ⟨key, hkey, h⟩ := exists_of_bind_eq_ok h
  rw [orMalformed_eq_ok hkey]
  split at h
  next hname =>
    obtain ⟨found, -, ⟨⟩⟩ := exists_of_bind_eq_ok h
    rw [hname, if_neg (by decide)]
  next =>
    split at h
    next hcases =>
      subst hcases
      obtain ⟨found, hfound, ⟨⟩⟩ := exists_of_bind_eq_ok h
      rw [if_pos rfl]
      exact readOnce_eq_ok hfound
    next hcases =>
      cases h
      rw [if_neg (mt Option.some.inj hcases)]

theorem readMember_groups : TakesUpOnce readMember id "groups" readGroups := by
  rintro state member next h
  obtain ⟨key, hkey, h⟩ := exists_of_bind_eq_ok h
  rw [orMalformed_eq_ok hkey]
  split at h
  next hgroups =>
    subst hgroups
    rw [if_pos rfl]
    exact readOnce_eq_ok h
  next hgroups =>
    cases h
    rw [if_neg (mt Option.some.inj hgroups)]

/-! ## Groups -/

/-- A group, that is a name with entries, is the one that stands in a document. -/
structure StandsIn (group : String × List Json) (tree : Tree) : Prop where
  name : (field? "name" 0 tree).elim (.ok "") readName = .ok group.1
  entries : (field? "cases" 1 tree).elim (.ok []) readEntries = .ok group.2

theorem exists_standsIn_of_readGroup {tree : Tree} {group : CaseGroup}
    (h : readGroup tree = .ok group) :
    ∃ raw, StandsIn raw tree ∧ group = .ofEntries raw.1 raw.2 := by
  rw [readGroup.eq_def] at h
  split at h
  · obtain ⟨⟨name, entries⟩, hrun, ⟨⟩⟩ := exists_of_bind_eq_ok h
    exact ⟨(name.getD "", entries.getD []),
      ⟨readGroupMember_name.elim_field? hrun rfl 0 "",
        readGroupMember_cases.elim_field? hrun rfl 1 []⟩, rfl⟩
  · cases h
    exact ⟨("", []), ⟨rfl, rfl⟩, rfl⟩
  · obtain ⟨name, hname, ⟨⟩⟩ := exists_of_bind_eq_ok h
    exact ⟨(name, []), ⟨hname, rfl⟩, rfl⟩
  · obtain ⟨name, hname, h⟩ := exists_of_bind_eq_ok h
    obtain ⟨entries, hentries, h⟩ := exists_of_bind_eq_ok h
    split at h
    · cases h
      exact ⟨(name, entries), ⟨hname, hentries⟩, rfl⟩
    · cases h
  · cases h

/-! ## Collections -/

/-- The collection of groups with given names and entries. -/
def ofGroups (groups : List (String × List Json)) : CaseData :=
  ⟨groups.map fun group => .ofEntries group.1 group.2⟩

/-- The groups that stand in a document, in order. -/
def groupTrees (tree : Tree) : List Tree :=
  match field? "groups" 0 tree with
  | some (.array items) => items
  | _ => []

theorem exists_standsIn_of_readGroups {tree : Tree} {groups : List CaseGroup}
    (h : readGroups tree = .ok groups) : ∃ items raw, tree = .array items ∧
      List.Forall₂ StandsIn raw items ∧ groups = (ofGroups raw).groups := by
  rw [readGroups.eq_def] at h
  split at h
  next items =>
    have hread := forall₂_of_mapM_eq_ok h
    clear h
    refine ⟨items, ?_⟩
    induction hread with
    | nil => exact ⟨[], rfl, .nil, rfl⟩
    | cons hgroup _ ih =>
      obtain ⟨first, hfirst, rfl⟩ := exists_standsIn_of_readGroup hgroup
      obtain ⟨raw, -, hraw, rfl⟩ := ih
      exact ⟨first :: raw, rfl, .cons hfirst hraw, rfl⟩
  next => cases h

/-- The groups of a collection are those that stand in the document. -/
theorem exists_standsIn_of_ofTree {tree : Tree} {data : CaseData} (h : ofTree tree = .ok data) :
    ∃ groups, List.Forall₂ StandsIn groups (groupTrees tree) ∧ data = ofGroups groups := by
  -- either form of a collection holds its groups in the same field
  have hgroups : (field? "groups" 0 tree).elim (.ok []) readGroups = .ok data.groups := by
    rw [ofTree.eq_def] at h
    split at h
    · obtain ⟨groups, hrun, ⟨⟩⟩ := exists_of_bind_eq_ok h
      exact readMember_groups.elim_field? hrun rfl 0 []
    · cases h
      rfl
    · obtain ⟨groups, hread, h⟩ := exists_of_bind_eq_ok h
      split at h
      · cases h
        exact hread
      · cases h
    · cases h
  obtain ⟨groups⟩ := data
  rw [groupTrees]
  cases hfield : field? "groups" 0 tree with
  | none =>
    rw [hfield, Option.elim_none] at hgroups
    cases hgroups
    exact ⟨[], .nil, rfl⟩
  | some held =>
    rw [hfield, Option.elim_some] at hgroups
    obtain ⟨items, raw, rfl, hraw, rfl⟩ := exists_standsIn_of_readGroups hgroups
    exact ⟨raw, hraw, rfl⟩

/-- Every collection that can be read is made of the groups that stand in the document. -/
theorem exists_standsIn_of_parse {text : String} {data : CaseData} (h : parse text = .ok data) :
    ∃ tree groups, Tree.parse? text = some tree ∧
      List.Forall₂ StandsIn groups (groupTrees tree) ∧ data = ofGroups groups := by
  obtain ⟨tree, htree, h⟩ := exists_of_bind_eq_ok h
  obtain ⟨groups, hgroups, rfl⟩ := exists_standsIn_of_ofTree h
  exact ⟨tree, groups, orMalformed_eq_ok htree, hgroups, rfl⟩

end LastLayer.CaseData
