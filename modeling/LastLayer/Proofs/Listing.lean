import LastLayer.CommandLine

/-!
# The patterns in a listing

A listing takes up a pattern again when it comes to a case that previews a text it has met before. A
text can come from different fields, it may be one that cannot be read, and the patterns are kept
from one group to the next. Nevertheless they do not show: at every point the patterns known are
those of the cases listed so far, each under the text for which it was found
(`PatternCache.Holds`). One more case keeps this (`PatternCache.Holds.snd_fetch`), and so do the
cases of a group and all groups of a collection.

Hence a pattern that is looked up is the one that would be found
(`PatternCache.Holds.fst_fetch`), and a listing shows what it would show if it kept none. This is
about the printed lines, which are all that a listing is; log records, which would tell when a
pattern is found, are no part of it.
-/

namespace LastLayer

/-! ## Patterns found afresh -/

/-- The lines about a case, with its pattern found afresh. -/
def Case.block (entry : Case) : List String :=
  entry.lines (Pattern.previewOrPlain entry.previewAlgorithm)

/-- The lines about a group: its name, its cases and an empty line. -/
def CaseGroup.block (group : CaseGroup) : List String :=
  ("== " ++ group.name) :: (group.cases.flatMap Case.block ++ [""])

/-- The listing of a collection if the pattern of every case is found afresh. -/
def CaseData.listingAfresh (data : CaseData) : String :=
  String.join ((data.groups.flatMap CaseGroup.block).map (· ++ "\n"))

/-! ## From one case to the next -/

namespace PatternCache

/-- A cache holds the patterns of some cases if its keys are the texts that these cases preview, and
each has the pattern that is found for it. -/
def Holds (cache : PatternCache) (cases : List Case) : Prop :=
  ∀ text pattern, cache[text]? = some pattern ↔
    (∃ entry ∈ cases, entry.previewAlgorithm = text) ∧ pattern = Pattern.previewOrPlain text

theorem holds_empty : (∅ : PatternCache).Holds [] := by
  intro text pattern
  rw [Std.HashMap.getElem?_empty]
  refine iff_of_false nofun ?_
  rintro ⟨⟨entry, hentry, -⟩, -⟩
  exact List.not_mem_nil hentry

namespace Holds

variable {cache : PatternCache} {cases : List Case} (h : cache.Holds cases)

include h

/-- It does not matter whether a pattern is looked up or found. -/
theorem fst_fetch (text : String) : (cache.fetch text).1 = Pattern.previewOrPlain text := by
  rw [fetch]
  split
  next pattern hknown => exact ((h text pattern).1 hknown).2
  next => rfl

/-- With the pattern of one more case the cache holds the patterns of one more case. -/
theorem snd_fetch (entry : Case) :
    (cache.fetch entry.previewAlgorithm).2.Holds (cases ++ [entry]) := by
  intro text pattern
  have hmet : (∃ other ∈ cases ++ [entry], other.previewAlgorithm = text) ↔
      (∃ other ∈ cases, other.previewAlgorithm = text) ∨ entry.previewAlgorithm = text := by
    simp only [List.mem_append, List.mem_singleton, or_and_right, exists_or, exists_eq_left]
  rw [hmet, fetch]
  split
  next known hknown =>
    -- the text has been met before, so nothing changes
    obtain ⟨hearlier, -⟩ := (h _ known).1 hknown
    rw [h text pattern]
    refine and_congr_left fun _ => (or_iff_left_of_imp ?_).symm
    rintro rfl
    exact hearlier
  next hunknown =>
    show (cache.insert _ _)[text]? = some pattern ↔ _
    rw [Std.HashMap.getElem?_insert]
    by_cases hsame : entry.previewAlgorithm = text
    · -- this is the new entry
      rw [if_pos (beq_iff_eq.2 hsame), hsame, Option.some_inj, eq_comm]
      exact (and_iff_right (.inr rfl)).symm
    · -- the other entries are as they were
      rw [if_neg (mt beq_iff_eq.1 hsame), h text pattern, or_iff_left hsame]

/-! ## The loop over groups and cases -/

theorem fst_caseLines (entries : List Case) :
    (Listing.caseLines cache entries).1 = entries.flatMap Case.block := by
  induction entries generalizing cache cases with
  | nil => rfl
  | cons entry entries ih =>
    show entry.lines (cache.fetch entry.previewAlgorithm).1 ++
      (Listing.caseLines (cache.fetch entry.previewAlgorithm).2 entries).1 = _
    -- the other cases are listed with the patterns known after this one
    rw [h.fst_fetch, ih (h.snd_fetch entry), List.flatMap_cons, Case.block]

theorem snd_caseLines (entries : List Case) :
    (Listing.caseLines cache entries).2.Holds (cases ++ entries) := by
  induction entries generalizing cache cases with
  | nil => rwa [List.append_nil]
  | cons entry entries ih =>
    have hrest := ih (h.snd_fetch entry)
    rwa [List.append_assoc, List.singleton_append] at hrest

theorem fst_groupLines (groups : List CaseGroup) :
    (Listing.groupLines cache groups).1 = groups.flatMap CaseGroup.block := by
  induction groups generalizing cache cases with
  | nil => rfl
  | cons group groups ih =>
    show ("== " ++ group.name) :: ((Listing.caseLines cache group.cases).1 ++
      "" :: (Listing.groupLines (Listing.caseLines cache group.cases).2 groups).1) = _
    rw [h.fst_caseLines, ih (h.snd_caseLines group.cases), List.flatMap_cons, CaseGroup.block,
      List.cons_append, List.append_assoc, List.singleton_append]

theorem snd_groupLines (groups : List CaseGroup) :
    (Listing.groupLines cache groups).2.Holds (cases ++ groups.flatMap CaseGroup.cases) := by
  induction groups generalizing cache cases with
  | nil => rwa [List.flatMap_nil, List.append_nil]
  | cons group groups ih =>
    have hrest := ih (h.snd_caseLines group.cases)
    rwa [List.append_assoc, ← List.flatMap_cons] at hrest

end Holds

end PatternCache

namespace Listing

theorem caseLines_append (cache : PatternCache) (done todo : List Case) :
    caseLines cache (done ++ todo) =
      ((caseLines cache done).1 ++ (caseLines (caseLines cache done).2 todo).1,
        (caseLines (caseLines cache done).2 todo).2) := by
  induction done generalizing cache with
  | nil => rfl
  | cons entry done ih => simp only [List.cons_append, caseLines, ih, List.append_assoc]

theorem groupLines_append (cache : PatternCache) (before after : List CaseGroup) :
    groupLines cache (before ++ after) =
      ((groupLines cache before).1 ++ (groupLines (groupLines cache before).2 after).1,
        (groupLines (groupLines cache before).2 after).2) := by
  induction before generalizing cache with
  | nil => rfl
  | cons group before ih =>
    simp only [List.cons_append, groupLines, ih, List.append_assoc]

/-- The patterns known within the loop over groups and cases: after some groups, and after some
cases of the next one. -/
def cacheAfter (before : List CaseGroup) (done : List Case) : PatternCache :=
  (caseLines (groupLines ∅ before).2 done).2

theorem holds_cacheAfter (before : List CaseGroup) (done : List Case) :
    (cacheAfter before done).Holds (before.flatMap CaseGroup.cases ++ done) :=
  (PatternCache.holds_empty.snd_groupLines before).snd_caseLines done

/-- The loop comes to this point: what is before it has been listed, and the rest is listed with the
patterns known there. -/
theorem fst_groupLines_eq (before after : List CaseGroup) {group : CaseGroup}
    {done todo : List Case} (hcases : group.cases = done ++ todo) :
    (groupLines ∅ (before ++ group :: after)).1 =
      before.flatMap CaseGroup.block ++ ("== " ++ group.name) :: (done.flatMap Case.block ++
        ((caseLines (cacheAfter before done) todo).1 ++
          "" :: (groupLines (caseLines (cacheAfter before done) todo).2 after).1)) := by
  have hbefore := PatternCache.holds_empty.fst_groupLines before
  have hdone := (PatternCache.holds_empty.snd_groupLines before).fst_caseLines done
  -- both loops are cut in two here, the outer one in front of the group and the inner one within it
  rw [groupLines_append, hbefore]
  simp only [groupLines, hcases, caseLines_append, hdone, List.append_assoc, cacheAfter]

end Listing

namespace CaseData

theorem listing_eq_listingAfresh (data : CaseData) : data.listing = data.listingAfresh := by
  rw [listing, PatternCache.holds_empty.fst_groupLines, listingAfresh]

/-- Patterns that are kept do not show. A listing is the one in which the pattern of every case is
found afresh, and so is the output of the command that prints it. At every point of the loop over
groups and cases, the keys of the cache are the texts that the cases so far preview, and each has
the pattern that is found for it, be it that of an algorithm or the plain one. So whatever has come
before, what is printed for a case that is still to come depends on that case alone. -/
theorem listing_hides_kept_patterns :
    (∀ data : CaseData, data.listing = data.listingAfresh) ∧
    (∀ {m : Type → Type} [Monad m] (readFile : String → m (Option String)) (path : String),
      Command.run readFile (.preview path) =
        Command.withData readFile path fun data => ⟨0, data.listingAfresh, ""⟩) ∧
    ∀ (data : CaseData) (before after : List CaseGroup) (group : CaseGroup) (done todo : List Case),
      data.groups = before ++ group :: after → group.cases = done ++ todo →
        let cache := Listing.cacheAfter before done
        (Listing.groupLines ∅ data.groups).1 =
          before.flatMap CaseGroup.block ++ ("== " ++ group.name) :: (done.flatMap Case.block ++
            ((Listing.caseLines cache todo).1 ++
              "" :: (Listing.groupLines (Listing.caseLines cache todo).2 after).1)) ∧
        (∀ text pattern, cache[text]? = some pattern ↔
          (∃ entry ∈ before.flatMap CaseGroup.cases ++ done, entry.previewAlgorithm = text) ∧
            pattern = Pattern.previewOrPlain text) ∧
        (∀ text, (cache.fetch text).1 = Pattern.previewOrPlain text) ∧
        (Listing.caseLines cache todo).1 = todo.flatMap Case.block := by
  refine ⟨listing_eq_listingAfresh, ?_, ?_⟩
  · intro m _ readFile path
    rw [Command.run]
    simp only [listing_eq_listingAfresh]
  · intro data before after group done todo hgroups hcases cache
    have hholds : cache.Holds (before.flatMap CaseGroup.cases ++ done) :=
      Listing.holds_cacheAfter before done
    rw [hgroups]
    exact ⟨Listing.fst_groupLines_eq before after hcases, hholds, hholds.fst_fetch,
      hholds.fst_caseLines todo⟩

/-- Two groups preview the same texts, one of them from another field and one that cannot be read; a
text that no case has previewed is not known. -/
theorem listing_hides_kept_patterns_of_two_groups :
    let sound : Case :=
      { number := some (.number 1), setup := none, rotations := none, algorithm := some "R U",
        auf := none, code := none, probability := none, category := none }
    let broken : Case := { sound with algorithm := some "(" }
    let other : Case := { sound with setup := some " R", algorithm := some " ", auf := some "U" }
    let before : CaseGroup := ⟨"First", [sound, broken], []⟩
    let group : CaseGroup := ⟨"Second", [other, broken], []⟩
    let data : CaseData := ⟨[before, group]⟩
    let cache := Listing.cacheAfter [before] [other]
    data.groups = [before] ++ group :: [] ∧ group.cases = [other] ++ [broken] ∧
      data.listing = data.listingAfresh ∧
      cache["R U"]? = some (Pattern.previewOrPlain "R U") ∧ cache["("]? = some Pattern.plain ∧
      (∀ pattern, cache["U"]? ≠ some pattern) ∧
      (Listing.caseLines cache [broken]).1 = broken.lines Pattern.plain := by
  intro sound broken other before group data cache
  obtain ⟨hlisting, -, hpoints⟩ := listing_hides_kept_patterns
  obtain ⟨-, hknown, -, hlines⟩ := hpoints data [before] [] group [other] [broken] rfl rfl
  have hplain : Pattern.previewOrPlain "(" = Pattern.plain := by decide +kernel
  have hbroken : broken.previewAlgorithm = "(" := by decide +kernel
  refine ⟨rfl, rfl, hlisting data, ?_, ?_, ?_, ?_⟩
  · exact (hknown _ _).2 ⟨⟨other, by simp, by decide +kernel⟩, rfl⟩
  · exact (hknown _ _).2 ⟨⟨broken, by simp [before], hbroken⟩, hplain.symm⟩
  · rintro pattern hpattern
    obtain ⟨⟨entry, hentry, htext⟩, -⟩ := (hknown _ _).1 hpattern
    have hnone : ∀ entry ∈ [before].flatMap CaseGroup.cases ++ [other],
        entry.previewAlgorithm ≠ "U" := by decide +kernel
    exact hnone entry hentry htext
  · rw [hlines, List.flatMap_singleton, Case.block, hbroken, hplain]

end CaseData

end LastLayer
