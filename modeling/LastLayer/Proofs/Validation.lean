import LastLayer.Validation
import LastLayer.Proofs.Structure
import Mathlib.Algebra.GroupWithZero.Nat
import Mathlib.Data.List.Induction
import Mathlib.Data.Nat.Count

/-!
# What a validation reports

Every case is run on a cube, and every cube that a run can lead to passes the checks of its structure
(`CaseReport.ofAlgorithm_eq`). What is left to report about a case is its number, its category, and
whether its moves can be read and need a rotation to be left out.

The cases are examined one after the other, and a number counts as a duplicate if an earlier case has
it. So the counts are proved by taking one more case at the end: `CaseData.length_problems_concat`
says what the last case adds, and `CaseData.length_problems` what all of them add up to.
-/

namespace LastLayer

/-! ## One case -/

/-- Whether the moves of a case can be read. -/
def Case.isReadable (entry : Case) : Bool :=
  (Algorithm.parse entry.validationAlgorithm).isOk

/-- Whether the moves of a case can be read and one of them is `x` or `z`. -/
def Case.usesTilt (entry : Case) : Bool :=
  match Algorithm.parse entry.validationAlgorithm with
  | .ok algorithm => algorithm.any fun move => move.letter = .x || move.letter = .z
  | .error _ => false

/-- Whether a case names another category than its group. -/
def Case.isMisfiled (group : CaseGroup) (entry : Case) : Bool :=
  entry.category.any fun category => category ≠ group.name

/-- Whether a problem is that a cube fails one of the checks of its structure. -/
def Problem.isStructural : Problem → Bool
  | .topStickers _ | .faceCounts _ | .colorCounts _ | .repeatedColor _ => true
  | _ => false

/-- No moves lead to a cube that fails a check. -/
theorem CaseReport.ofAlgorithm_eq (algorithm : Algorithm) :
    ofAlgorithm algorithm = ⟨9, true, true, true, algorithm.any Move.isStripped⟩ := by
  have h : (Cube.solved.applyAll algorithm.stripped.inverse).Reachable :=
    Cube.Reachable.solved.applyAll _
  simp only [ofAlgorithm, h.topStickerCount, h.faceCountsValid, h.colorCountsValid, h.cubiesValid]

namespace ExaminedCase

variable (group : CaseGroup) (entry : Case)

theorem moveProblems_examine :
    (examine group entry).moveProblems =
      match Algorithm.parse entry.validationAlgorithm with
      | .error error => [.unreadable entry.title error]
      | .ok _ => [] := by
  simp only [moveProblems, examine, Case.report]
  cases Algorithm.parse entry.validationAlgorithm with
  | error error => rfl
  | ok algorithm => simp [Except.map, CaseReport.ofAlgorithm_eq]

theorem length_moveProblems :
    (examine group entry).moveProblems.length = if entry.isReadable then 0 else 1 := by
  rw [moveProblems_examine, Case.isReadable]
  cases Algorithm.parse entry.validationAlgorithm <;> rfl

theorem length_numberProblems (earlier : List CaseNumber) :
    ((examine group entry).numberProblems earlier).length =
      (if entry.number = none then 1 else 0) +
        if ∃ number ∈ earlier, entry.number = some number then 1 else 0 := by
  simp only [numberProblems, examine]
  cases entry.number with
  | none => simp
  | some number =>
    by_cases h : number ∈ earlier
    · simp [h]
    · simp [h]

theorem length_warnings :
    (examine group entry).warnings.length =
      (if entry.isMisfiled group then 1 else 0) + if entry.usesTilt then 1 else 0 := by
  rw [warnings, List.length_append]
  congr 1
  · cases hcategory : entry.category with
    | none => simp [examine, Case.isMisfiled, hcategory]
    | some category =>
      by_cases h : category = group.name <;> simp [examine, Case.isMisfiled, hcategory, h]
  · cases hparse : Algorithm.parse entry.validationAlgorithm with
    | error error => simp [examine, Case.report, Case.usesTilt, hparse, Except.map]
    | ok algorithm =>
      simp only [examine, Case.report, Case.usesTilt, hparse, Except.map,
        CaseReport.ofAlgorithm_eq, apply_ite List.length]
      rfl

/-- No problem with a case comes from a check of the cube. -/
theorem not_isStructural {earlier : List CaseNumber} {problem : Problem}
    (h : problem ∈ (examine group entry).numberProblems earlier ++
      (examine group entry).moveProblems) : problem.isStructural = false := by
  rw [moveProblems_examine, List.mem_append] at h
  rcases h with h | h
  · simp only [numberProblems] at h
    split at h
    · rw [List.mem_singleton.1 h]
      rfl
    · split at h
      · rw [List.mem_singleton.1 h]
        rfl
      · cases h
  · split at h
    · rw [List.mem_singleton.1 h]
      rfl
    · cases h

/-- The cases at the end are compared with all numbers before them. -/
theorem problems_append (earlier : List CaseNumber) (first second : List ExaminedCase) :
    problems earlier (first ++ second) =
      problems earlier first ++
        problems ((first.filterMap (·.entry.number)).reverse ++ earlier) second := by
  -- each case of the first part puts its number in front of the earlier ones
  induction first generalizing earlier with
  | nil => rfl
  | cons examined first ih =>
    have hnumbers : ((examined :: first).filterMap (·.entry.number)).reverse ++ earlier =
        (first.filterMap (·.entry.number)).reverse ++
          (examined.entry.number.toList ++ earlier) := by
      rw [List.filterMap_cons]
      cases examined.entry.number <;> simp
    rw [List.cons_append, problems, problems, ih, hnumbers]
    simp only [List.append_assoc]

end ExaminedCase

/-! ## All cases -/

namespace CaseData

/-- The numbers of some cases, in order. -/
def numbersOf (cases : List (CaseGroup × Case)) : List CaseNumber :=
  cases.filterMap fun member => member.2.number

/-- The number of the case at a place. -/
def numberAt? (cases : List (CaseGroup × Case)) (place : Nat) : Option CaseNumber :=
  cases[place]?.bind fun member => member.2.number

/-- Whether the case at a place has a number, and an earlier case has the same one. -/
def IsDuplicate (cases : List (CaseGroup × Case)) (place : Nat) : Prop :=
  (numberAt? cases place).isSome ∧
    ∃ earlier < place, numberAt? cases earlier = numberAt? cases place

instance (cases : List (CaseGroup × Case)) : DecidablePred (IsDuplicate cases) := fun _ => by
  unfold IsDuplicate
  infer_instance

/-- How many cases have the number of an earlier case. -/
def duplicates (cases : List (CaseGroup × Case)) : Nat :=
  Nat.count (IsDuplicate cases) cases.length

/-- Some cases, examined. -/
def examineAll (cases : List (CaseGroup × Case)) : List ExaminedCase :=
  cases.map fun member => .examine member.1 member.2

variable (cases : List (CaseGroup × Case)) (group : CaseGroup) (entry : Case)

theorem numbersOf_examineAll :
    (examineAll cases).filterMap (·.entry.number) = numbersOf cases := by
  rw [examineAll, List.filterMap_map]
  rfl

theorem numbersOf_concat :
    numbersOf (cases ++ [(group, entry)]) = numbersOf cases ++ entry.number.toList := by
  rw [numbersOf, List.filterMap_append, numbersOf]
  cases h : entry.number <;> simp [h]

theorem numberAt?_concat_of_lt {place : Nat} (h : place < cases.length) :
    numberAt? (cases ++ [(group, entry)]) place = numberAt? cases place := by
  rw [numberAt?, List.getElem?_append_left h, numberAt?]

theorem numberAt?_concat_length :
    numberAt? (cases ++ [(group, entry)]) cases.length = entry.number := by
  rw [numberAt?, List.getElem?_concat_length]
  rfl

theorem mem_numbersOf {number : CaseNumber} :
    number ∈ numbersOf cases ↔ ∃ place < cases.length, numberAt? cases place = some number := by
  rw [numbersOf, List.mem_filterMap]
  constructor
  · rintro ⟨member, hmember, hnumber⟩
    obtain ⟨place, hplace, rfl⟩ := List.getElem_of_mem hmember
    exact ⟨place, hplace, by rw [numberAt?, List.getElem?_eq_getElem hplace]; exact hnumber⟩
  · rintro ⟨place, hplace, hnumber⟩
    rw [numberAt?, List.getElem?_eq_getElem hplace] at hnumber
    exact ⟨cases[place], List.getElem_mem hplace, hnumber⟩

/-- Among the cases before the last one nothing changes. -/
theorem isDuplicate_concat_of_lt {place : Nat} (h : place < cases.length) :
    IsDuplicate (cases ++ [(group, entry)]) place ↔ IsDuplicate cases place := by
  rw [IsDuplicate, IsDuplicate, numberAt?_concat_of_lt cases group entry h]
  refine and_congr_right fun _ => exists_congr fun earlier => and_congr_right fun hearlier => ?_
  rw [numberAt?_concat_of_lt cases group entry (hearlier.trans h)]

/-- One more case is a duplicate just if the cases before it have its number. -/
theorem isDuplicate_concat_length :
    IsDuplicate (cases ++ [(group, entry)]) cases.length ↔
      ∃ number ∈ numbersOf cases, entry.number = some number := by
  rw [IsDuplicate, numberAt?_concat_length]
  constructor
  · rintro ⟨hsome, earlier, hearlier, hsame⟩
    obtain ⟨number, hnumber⟩ := Option.isSome_iff_exists.1 hsome
    rw [numberAt?_concat_of_lt cases group entry hearlier, hnumber] at hsame
    exact ⟨number, (mem_numbersOf cases).2 ⟨earlier, hearlier, hsame⟩, hnumber⟩
  · rintro ⟨number, hmem, hnumber⟩
    obtain ⟨earlier, hearlier, hsame⟩ := (mem_numbersOf cases).1 hmem
    refine ⟨by rw [hnumber]; rfl, earlier, hearlier, ?_⟩
    rw [numberAt?_concat_of_lt cases group entry hearlier, hsame, hnumber]

theorem duplicates_concat :
    duplicates (cases ++ [(group, entry)]) = duplicates cases +
      if ∃ number ∈ numbersOf cases, entry.number = some number then 1 else 0 := by
  have hbefore : ∀ place < cases.length,
      (IsDuplicate (cases ++ [(group, entry)]) place ↔ IsDuplicate cases place) :=
    fun _ hplace => isDuplicate_concat_of_lt cases group entry hplace
  rw [duplicates, List.length_append, List.length_singleton, Nat.count_succ, duplicates]
  simp only [isDuplicate_concat_length]
  congr 1
  exact Nat.le_antisymm (Nat.count_mono_left fun place hplace => (hbefore place hplace).1)
    (Nat.count_mono_left fun place hplace => (hbefore place hplace).2)

/-- The last case is compared with the numbers of all cases before it, which report what they report
without it. -/
theorem problems_concat :
    ExaminedCase.problems [] (examineAll (cases ++ [(group, entry)])) =
      ExaminedCase.problems [] (examineAll cases) ++
        ((ExaminedCase.examine group entry).numberProblems (numbersOf cases).reverse ++
          (ExaminedCase.examine group entry).moveProblems) := by
  rw [examineAll, List.map_append, ExaminedCase.problems_append, ← examineAll,
    numbersOf_examineAll]
  simp only [List.map_singleton, ExaminedCase.problems, List.append_nil]

/-- What the last case adds to the problems. -/
theorem length_problems_concat :
    (ExaminedCase.problems [] (examineAll (cases ++ [(group, entry)]))).length =
      (ExaminedCase.problems [] (examineAll cases)).length +
        ((if entry.number = none then 1 else 0) +
          (if ∃ number ∈ numbersOf cases, entry.number = some number then 1 else 0) +
          if entry.isReadable then 0 else 1) := by
  rw [problems_concat, List.length_append, List.length_append, ExaminedCase.length_numberProblems,
    ExaminedCase.length_moveProblems]
  simp only [List.mem_reverse]

/-- The problems of all cases, counted by their causes. -/
theorem length_problems :
    (ExaminedCase.problems [] (examineAll cases)).length =
      cases.countP (fun member => member.2.number = none) + duplicates cases +
        cases.countP fun member => !member.2.isReadable := by
  induction cases using List.reverseRecOn with
  | nil => rfl
  | append_singleton cases last ih =>
    obtain ⟨group, entry⟩ := last
    -- each of the three causes adds to its own count
    rw [length_problems_concat, ih, duplicates_concat, List.countP_append, List.countP_append,
      List.countP_singleton, List.countP_singleton]
    cases entry.isReadable <;>
      simp only [decide_eq_true_eq, Bool.not_true, Bool.not_false, if_true, if_false,
        Bool.false_eq_true] <;> omega

theorem length_warnings :
    ((examineAll cases).flatMap ExaminedCase.warnings).length =
      cases.countP (fun member => member.2.isMisfiled member.1) +
        cases.countP fun member => member.2.usesTilt := by
  induction cases with
  | nil => rfl
  | cons member cases ih =>
    rw [examineAll, List.map_cons, List.flatMap_cons, List.length_append, ← examineAll, ih,
      ExaminedCase.length_warnings, List.countP_cons, List.countP_cons]
    omega

/-! ## Different numbers -/

/-- One more number is a new one just if it is not among the others. -/
theorem card_toFinset_concat (numbers : List CaseNumber) (number : CaseNumber) :
    (numbers ++ [number]).toFinset.card =
      numbers.toFinset.card + if number ∈ numbers then 0 else 1 := by
  have hinsert : (numbers ++ [number]).toFinset = insert number numbers.toFinset := by
    rw [List.toFinset_append, List.toFinset_cons, List.toFinset_nil, insert_empty_eq,
      Finset.union_comm, ← Finset.insert_eq]
  rw [hinsert]
  split
  next h => rw [Finset.insert_eq_of_mem (List.mem_toFinset.2 h), Nat.add_zero]
  next h => rw [Finset.card_insert_of_notMem (mt List.mem_toFinset.1 h)]

/-- Removing duplicates leaves one of each. -/
theorem length_eraseDups (numbers : List CaseNumber) :
    numbers.eraseDups.length = numbers.toFinset.card := by
  induction numbers using List.reverseRecOn with
  | nil => rfl
  | append_singleton numbers number ih =>
    rw [List.eraseDups_append, List.length_append, ih, card_toFinset_concat]
    by_cases h : number ∈ numbers <;> simp [List.removeAll, List.eraseDups_cons, h]

/-- Every numbered case brings a new number or is a duplicate. -/
theorem duplicates_add_card :
    duplicates cases + (numbersOf cases).toFinset.card = (numbersOf cases).length := by
  induction cases using List.reverseRecOn with
  | nil => rfl
  | append_singleton cases last ih =>
    obtain ⟨group, entry⟩ := last
    rw [duplicates_concat, numbersOf_concat, List.length_append, ← ih]
    cases entry.number with
    | none => simp
    | some number =>
      -- an earlier case has the number just if the number is no new one
      have hknown : (∃ other ∈ numbersOf cases, some number = some other) ↔
          number ∈ numbersOf cases := by
        simp only [Option.some_inj, exists_eq_right']
      rw [Option.toList_some, card_toFinset_concat, List.length_singleton]
      simp only [hknown]
      split <;> omega

theorem duplicates_eq_zero_iff : duplicates cases = 0 ↔ (numbersOf cases).Nodup := by
  have hadd := duplicates_add_card cases
  rw [← Multiset.coe_nodup, ← Multiset.toFinset_card_eq_card_iff_nodup, Multiset.coe_card]
  change _ ↔ (numbersOf cases).toFinset.card = _
  omega

theorem length_numbersOf (h : ∀ member ∈ cases, member.2.number ≠ none) :
    (numbersOf cases).length = cases.length := by
  rw [numbersOf, List.length_filterMap_eq_countP, List.countP_eq_length]
  intro member hmember
  exact Option.isSome_iff_ne_none.2 (h member hmember)

/-! ## The report -/

theorem length_shapeProblems (data : CaseData) (source : String) :
    (data.shapeProblems source).length =
      (if data.groups.isEmpty then 1 else 0) + (data.groups.map (·.malformed.length)).sum := by
  rw [shapeProblems, List.length_append, List.length_flatMap]
  cases data.groups <;> simp

theorem mem_shapeProblems {data : CaseData} {source : String} {problem : Problem} :
    problem ∈ data.shapeProblems source ↔
      data.groups = [] ∧ problem = .noGroups source ∨
        ∃ group ∈ data.groups, ∃ entry ∈ group.malformed,
          problem = .malformedCase group.name entry := by
  rw [shapeProblems, List.mem_append, List.mem_flatMap]
  simp only [List.mem_map, eq_comm (a := problem)]
  refine or_congr_left ?_
  cases data.groups <;> simp [eq_comm]

theorem not_isStructural_of_mem_shapeProblems {data : CaseData} {source : String}
    {problem : Problem} (h : problem ∈ data.shapeProblems source) :
    problem.isStructural = false := by
  rcases mem_shapeProblems.1 h with ⟨-, rfl⟩ | ⟨group, -, entry, -, rfl⟩ <;> rfl

theorem not_isStructural_of_mem_problems {earlier : List CaseNumber} {problem : Problem}
    (h : problem ∈ ExaminedCase.problems earlier (examineAll cases)) :
    problem.isStructural = false := by
  induction cases generalizing earlier with
  | nil => cases h
  | cons member cases ih =>
    rw [examineAll, List.map_cons, ExaminedCase.problems, List.mem_append] at h
    rcases h with hmember | hrest
    · exact ExaminedCase.not_isStructural member.1 member.2 hmember
    · exact ih hrest

/-- The problems of a report, counted by their causes. -/
theorem length_validate_problems (data : CaseData) (source : String) :
    (data.validate source).problems.length =
      (if data.groups.isEmpty then 1 else 0) + (data.groups.map (·.malformed.length)).sum +
        data.cases.countP (fun member => member.2.number = none) + duplicates data.cases +
        data.cases.countP (fun member => !member.2.isReadable) := by
  change (data.shapeProblems source ++
    ExaminedCase.problems [] (examineAll data.cases)).length = _
  rw [List.length_append, length_shapeProblems, length_problems]
  omega

theorem validated_validate (data : CaseData) (source : String) :
    (data.validate source).validated = (numbersOf data.cases).toFinset.card := by
  rw [← length_eraseDups, ← numbersOf_examineAll]
  rfl

/-- A collection is valid just if none of the causes of a problem is there. -/
theorem isOk_validate_iff (data : CaseData) (source : String) :
    (data.validate source).isOk = true ↔
      data.groups ≠ [] ∧ (∀ group ∈ data.groups, group.malformed = []) ∧
        (∀ member ∈ data.cases, member.2.number ≠ none) ∧ (numbersOf data.cases).Nodup ∧
        ∀ member ∈ data.cases, member.2.isReadable = true := by
  have hgroups : (if data.groups.isEmpty then 1 else 0) = 0 ↔ data.groups ≠ [] := by
    cases data.groups <;> simp
  have hmalformed : (data.groups.map (·.malformed.length)).sum = 0 ↔
      ∀ group ∈ data.groups, group.malformed = [] := by
    simp [List.sum_eq_zero_iff_forall_eq_nat]
  have hnumbers : data.cases.countP (fun member => member.2.number = none) = 0 ↔
      ∀ member ∈ data.cases, member.2.number ≠ none := by
    simp only [List.countP_eq_zero, decide_eq_true_eq, ne_eq]
  have hreadable : data.cases.countP (fun member => !member.2.isReadable) = 0 ↔
      ∀ member ∈ data.cases, member.2.isReadable = true := by
    simp only [List.countP_eq_zero, Bool.not_eq_true', Bool.not_eq_false]
  -- a sum is zero just if every summand is
  rw [ValidationReport.isOk, List.isEmpty_iff_length_eq_zero, length_validate_problems,
    Nat.add_eq_zero_iff, Nat.add_eq_zero_iff, Nat.add_eq_zero_iff, Nat.add_eq_zero_iff, hgroups,
    hmalformed, hnumbers, hreadable, duplicates_eq_zero_iff]
  simp only [and_assoc]

/-- A report counts exactly what is wrong with a collection: the problems and the warnings by their
causes, and the different numbers. No case fails a check of the structure of its cube. So a
collection is valid just if it has a group, every entry is a case, all cases have numbers, all of them
different, and the moves of every case can be read; and then all cases are counted. -/
theorem validate_exact (data : CaseData) (source : String) :
    let report := data.validate source
    (report.problems.length =
      (if data.groups.isEmpty then 1 else 0) + (data.groups.map (·.malformed.length)).sum +
        data.cases.countP (fun member => member.2.number = none) + duplicates data.cases +
        data.cases.countP (fun member => !member.2.isReadable)) ∧
    (report.warnings.length =
      data.cases.countP (fun member => member.2.isMisfiled member.1) +
        data.cases.countP (fun member => member.2.usesTilt)) ∧
    report.validated = (numbersOf data.cases).toFinset.card ∧
    (∀ problem ∈ report.problems, problem.isStructural = false) ∧
    (report.isOk = true ↔
      data.groups ≠ [] ∧ (∀ group ∈ data.groups, group.malformed = []) ∧
        (∀ member ∈ data.cases, member.2.number ≠ none) ∧ (numbersOf data.cases).Nodup ∧
        ∀ member ∈ data.cases, member.2.isReadable = true) ∧
    (report.isOk = true → report.validated = data.cases.length) := by
  intro report
  have hok := isOk_validate_iff data source
  refine ⟨length_validate_problems data source, length_warnings data.cases,
    validated_validate data source, ?_, hok, ?_⟩
  · intro problem hproblem
    rcases List.mem_append.1 hproblem with hshape | hcase
    · exact not_isStructural_of_mem_shapeProblems hshape
    · exact not_isStructural_of_mem_problems data.cases hcase
  · intro hvalid
    obtain ⟨-, -, hnumbered, hnodup, -⟩ := hok.1 hvalid
    rw [← length_numbersOf data.cases hnumbered, ← List.toFinset_card_of_nodup hnodup]
    exact validated_validate data source

/-- Two numbered cases whose moves can be read make a valid collection, and both are counted. The
number and the text that looks like it are different. -/
theorem validate_exact_of_two_cases :
    let entry : Case :=
      { number := some (.number 27), setup := none, rotations := some "y", algorithm := some "R U2",
        auf := none, code := none, probability := none, category := none }
    let other : Case := { entry with number := some (.text "27"), rotations := some "x" }
    let data : CaseData := ⟨[⟨"Sune", [entry, other], []⟩]⟩
    (data.validate "cases.json").isOk = true ∧ (data.validate "cases.json").validated = 2 := by
  intro entry other data
  obtain ⟨-, -, -, -, hok, hall⟩ := validate_exact data "cases.json"
  have hvalid : (data.validate "cases.json").isOk = true := by
    rw [hok]
    decide +kernel
  exact ⟨hvalid, hall hvalid⟩

end CaseData

end LastLayer
