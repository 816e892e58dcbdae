import LastLayer.Case.Reader
import LastLayer.Proofs.Validation

/-!
# Numbers that look alike

A case number is a number or a text, and a number is shown like the text of its numeral. Validating
compares case numbers as they are, but a title has a case number as it is shown. So equal titles are
reported just if no number is given as a number in one case and as its numeral in another one
(`CaseData.shown_duplicates_exact`).

The report has one duplicate for each case that `CaseData.IsDuplicate` tells
(`CaseData.filter_problems`). A number and its numeral get past this in the first case that has the
one and the first case that has the other: neither is a duplicate (`CaseData.exists_first`), and yet
the later one looks like the earlier one.
-/

namespace LastLayer

/-! ## Case numbers as they are shown -/

namespace CaseNumber

/-- A numeral can be read back. -/
theorem ofDigitChars_toString (n : Nat) : Nat.ofDigitChars 10 (toString n).toList 0 = n := by
  rw [show (toString n).toList = Nat.toDigits 10 n from Nat.toList_repr]
  exact Nat.ofDigitChars_ten_toDigits

/-- Two case numbers look alike if they are the same, or one is a number and the other one its
numeral. -/
theorem display_eq_display_iff {first second : CaseNumber} :
    first.display = second.display ↔
      first = second ∨ ∃ n, first = .number n ∧ second = .text (toString n) ∨
        first = .text (toString n) ∧ second = .number n := by
  constructor
  · intro h
    cases first with
    | number n =>
      cases second with
      | number m =>
        have hsame : n = m := by
          rw [← ofDigitChars_toString n, ← ofDigitChars_toString m]
          exact congrArg (Nat.ofDigitChars 10 ·.toList 0) h
        exact .inl (congrArg number hsame)
      | text value => exact .inr ⟨n, .inl ⟨rfl, congrArg text h.symm⟩⟩
    | text value =>
      cases second with
      | number m => exact .inr ⟨m, .inr ⟨congrArg text h, rfl⟩⟩
      | text other => exact .inl (congrArg text h)
  · rintro (rfl | ⟨n, ⟨rfl, rfl⟩ | ⟨rfl, rfl⟩⟩) <;> rfl

end CaseNumber

/-- A case number that is a text is read again from a string that looks like it, whatever it was
read from: `-2` and its string are the same. A number is not. -/
theorem Json.caseNumber?_string_display (number : CaseNumber) :
    (Json.string number.display).caseNumber? = some number ↔ ∀ n, number ≠ .number n := by
  cases number with
  | number n =>
    have hdiffers : (Json.string (toString n)).caseNumber? ≠ some (.number n) := by
      rintro ⟨⟩
    exact iff_of_false hdiffers fun h => h n rfl
  | text value => exact iff_of_true rfl fun n => by rintro ⟨⟩

/-! ## Duplicates in the report -/

/-- Whether a problem is that a case has the number of an earlier case. -/
def Problem.isDuplicate : Problem → Bool
  | .duplicateNumber _ => true
  | _ => false

namespace ExaminedCase

variable (group : CaseGroup) (entry : Case)

theorem filter_moveProblems :
    (examine group entry).moveProblems.filter Problem.isDuplicate = [] := by
  rw [moveProblems_examine]
  cases Algorithm.parse entry.validationAlgorithm <;> rfl

theorem filter_numberProblems (earlier : List CaseNumber) :
    ((examine group entry).numberProblems earlier).filter Problem.isDuplicate =
      (entry.number.toList.filter (· ∈ earlier)).map .duplicateNumber := by
  simp only [numberProblems, examine]
  cases entry.number with
  | none => rfl
  | some number =>
    by_cases h : number ∈ earlier
    · simp [h, Problem.isDuplicate]
    · simp [h]

end ExaminedCase

theorem CaseData.filter_shapeProblems (data : CaseData) (source : String) :
    (data.shapeProblems source).filter Problem.isDuplicate = [] := by
  rw [List.filter_eq_nil_iff]
  intro problem h
  rcases mem_shapeProblems.1 h with ⟨-, rfl⟩ | ⟨group, -, entry, -, rfl⟩ <;>
    exact Bool.false_ne_true

namespace CaseData

variable (cases : List (CaseGroup × Case))

/-- What the last case adds to the duplicates. -/
theorem filter_problems_concat (group : CaseGroup) (entry : Case) :
    (ExaminedCase.problems [] (examineAll (cases ++ [(group, entry)]))).filter
        Problem.isDuplicate =
      (ExaminedCase.problems [] (examineAll cases)).filter Problem.isDuplicate ++
        (entry.number.toList.filter (· ∈ (numbersOf cases).reverse)).map .duplicateNumber := by
  rw [problems_concat, List.filter_append, List.filter_append,
    ExaminedCase.filter_numberProblems, ExaminedCase.filter_moveProblems, List.append_nil]

/-- The numbers of the cases that have the number of an earlier case, in order. -/
def duplicateNumbers : List CaseNumber :=
  ((List.range cases.length).filter (IsDuplicate cases)).filterMap (numberAt? cases)

theorem duplicateNumbers_concat (group : CaseGroup) (entry : Case) :
    duplicateNumbers (cases ++ [(group, entry)]) =
      duplicateNumbers cases ++ entry.number.toList.filter (· ∈ (numbersOf cases).reverse) := by
  -- the cases before the last one are compared with each other as without it
  have hfilter : (List.range cases.length).filter (IsDuplicate (cases ++ [(group, entry)])) =
      (List.range cases.length).filter (IsDuplicate cases) :=
    List.filter_congr fun place hplace =>
      decide_eq_decide.2 (isDuplicate_concat_of_lt cases group entry (List.mem_range.1 hplace))
  have hnumbers : ((List.range cases.length).filter (IsDuplicate cases)).filterMap
        (numberAt? (cases ++ [(group, entry)])) = duplicateNumbers cases :=
    List.filterMap_congr fun place hplace => numberAt?_concat_of_lt cases group entry
      (List.mem_range.1 (List.mem_filter.1 hplace).1)
  have hlast : ([cases.length].filter (IsDuplicate (cases ++ [(group, entry)]))).filterMap
        (numberAt? (cases ++ [(group, entry)])) =
      entry.number.toList.filter (· ∈ (numbersOf cases).reverse) := by
    rw [List.filter_singleton]
    simp only [isDuplicate_concat_length]
    cases hnumber : entry.number with
    | none => simp
    | some number =>
      by_cases h : number ∈ numbersOf cases <;> simp [h, numberAt?_concat_length, hnumber]
  rw [duplicateNumbers, List.length_append, List.length_singleton, List.range_succ,
    List.filter_append, List.filterMap_append, hfilter, hnumbers, hlast]

/-- The report has one duplicate for each case that has the number of an earlier case. -/
theorem filter_problems :
    (ExaminedCase.problems [] (examineAll cases)).filter Problem.isDuplicate =
      (duplicateNumbers cases).map .duplicateNumber := by
  induction cases using List.reverseRecOn with
  | nil => rfl
  | append_singleton cases last ih =>
    obtain ⟨group, entry⟩ := last
    rw [filter_problems_concat, duplicateNumbers_concat, ih, List.map_append]

/-! ## Cases that look alike -/

/-- How the number of the case at a place is shown. -/
def shownAt? (place : Nat) : Option String :=
  (numberAt? cases place).map CaseNumber.display

/-- Whether the case at a place has a number, and an earlier case shows the same one. -/
def IsShownBefore (place : Nat) : Prop :=
  (shownAt? cases place).isSome ∧ ∃ earlier < place, shownAt? cases earlier = shownAt? cases place

/-- Whether a number is given as a number in one case and as its numeral in another one. -/
def IsMixed : Prop :=
  ∃ n, .number n ∈ numbersOf cases ∧ .text (toString n) ∈ numbersOf cases

instance : DecidablePred (IsShownBefore cases) := fun _ => by
  unfold IsShownBefore
  infer_instance

variable {cases}

theorem mem_numbersOf_of_numberAt? {place : Nat} {number : CaseNumber}
    (h : numberAt? cases place = some number) : number ∈ numbersOf cases := by
  refine (mem_numbersOf cases).2 ⟨place, ?_, h⟩
  by_contra hplace
  rw [numberAt?, List.getElem?_eq_none (Nat.not_lt.1 hplace)] at h
  cases h

/-- Of the cases with a number the first one is no duplicate. -/
theorem exists_first {number : CaseNumber} (h : number ∈ numbersOf cases) :
    ∃ place, numberAt? cases place = some number ∧ ¬ IsDuplicate cases place := by
  have hsome : ∃ place, numberAt? cases place = some number := by
    obtain ⟨place, -, hplace⟩ := (mem_numbersOf cases).1 h
    exact ⟨place, hplace⟩
  refine ⟨Nat.find hsome, Nat.find_spec hsome, ?_⟩
  rintro ⟨-, earlier, hearlier, hsame⟩
  exact Nat.find_min hsome hearlier (hsame.trans (Nat.find_spec hsome))

theorem isShownBefore_of_display_eq {place earlier : Nat} {number other : CaseNumber}
    (hplace : numberAt? cases place = some number) (hearlier : numberAt? cases earlier = some other)
    (hlt : earlier < place) (hdisplay : other.display = number.display) :
    IsShownBefore cases place := by
  refine ⟨by rw [shownAt?, hplace]; rfl, earlier, hlt, ?_⟩
  rw [shownAt?, shownAt?, hplace, hearlier, Option.map_some, Option.map_some, hdisplay]

/-- Numbers that look alike are the same unless there is a number and its numeral. -/
theorem eq_of_display_eq_iff :
    (∀ number ∈ numbersOf cases, ∀ other ∈ numbersOf cases,
      number.display = other.display → number = other) ↔ ¬ IsMixed cases := by
  constructor
  · rintro h ⟨n, hnumber, htext⟩
    cases h _ hnumber _ htext rfl
  · intro h number hnumber other hother hdisplay
    rcases CaseNumber.display_eq_display_iff.1 hdisplay with
      hsame | ⟨n, ⟨rfl, rfl⟩ | ⟨rfl, rfl⟩⟩
    · exact hsame
    · exact absurd ⟨n, hnumber, hother⟩ h
    · exact absurd ⟨n, hother, hnumber⟩ h

theorem isDuplicate_iff_isShownBefore_iff :
    (∀ place, IsDuplicate cases place ↔ IsShownBefore cases place) ↔ ¬ IsMixed cases := by
  constructor
  · rintro h ⟨n, hnumber, htext⟩
    obtain ⟨first, hfirst, hfirst'⟩ := exists_first hnumber
    obtain ⟨second, hsecond, hsecond'⟩ := exists_first htext
    -- the later one of the two looks like the earlier one
    rcases Nat.lt_trichotomy first second with hlt | rfl | hlt
    · exact hsecond' ((h second).2 (isShownBefore_of_display_eq hsecond hfirst hlt rfl))
    · rw [hfirst] at hsecond
      cases hsecond
    · exact hfirst' ((h first).2 (isShownBefore_of_display_eq hfirst hsecond hlt rfl))
  · intro h place
    constructor
    · rintro ⟨hsome, earlier, hlt, hsame⟩
      exact ⟨Option.isSome_map.trans hsome, earlier, hlt, congrArg (Option.map _) hsame⟩
    · rintro ⟨hsome, earlier, hlt, hsame⟩
      obtain ⟨number, hnumber⟩ := Option.isSome_iff_exists.1 (Option.isSome_map.symm.trans hsome)
      rw [shownAt?, shownAt?, hnumber, Option.map_some] at hsame
      obtain ⟨other, hother, hdisplay⟩ := Option.map_eq_some_iff.1 hsame
      obtain rfl : other = number := eq_of_display_eq_iff.2 h _ (mem_numbersOf_of_numberAt? hother)
        _ (mem_numbersOf_of_numberAt? hnumber) hdisplay
      exact ⟨Option.isSome_iff_exists.2 ⟨_, hnumber⟩, earlier, hlt, hother.trans hnumber.symm⟩

theorem map_title (h : ∀ member ∈ cases, member.2.number ≠ none) :
    cases.map (fun member => member.2.title) =
      (numbersOf cases).map fun number => "OLL " ++ number.display := by
  induction cases with
  | nil => rfl
  | cons member cases ih =>
    obtain ⟨hmember, hcases⟩ := List.forall_mem_cons.1 h
    obtain ⟨number, hnumber⟩ := Option.ne_none_iff_exists'.1 hmember
    have hnumbers : numbersOf (member :: cases) = number :: numbersOf cases :=
      List.filterMap_cons_some hnumber
    rw [List.map_cons, ih hcases, hnumbers, List.map_cons, Case.title, hnumber]

/-- In a report there is one duplicate for each case that has the number of an earlier case, in the
order of the cases. These are the cases whose number is shown like the one of an earlier case just
if no number is given as a number and as its numeral; and just then the titles in a valid collection
are different. -/
theorem shown_duplicates_exact (data : CaseData) (source : String) :
    let report := data.validate source
    (report.problems.filter Problem.isDuplicate).map Problem.message =
      (((List.range data.cases.length).filter (IsDuplicate data.cases)).filterMap
        (shownAt? data.cases)).map ("Duplicate OLL number detected: " ++ ·) ∧
    ((∀ place, IsDuplicate data.cases place ↔ IsShownBefore data.cases place) ↔
      ¬ IsMixed data.cases) ∧
    (report.isOk = true →
      ((data.cases.map fun member => member.2.title).Nodup ↔ ¬ IsMixed data.cases)) := by
  intro report
  refine ⟨?_, isDuplicate_iff_isShownBefore_iff, fun hvalid => ?_⟩
  · have hproblems : report.problems.filter Problem.isDuplicate =
        (duplicateNumbers data.cases).map .duplicateNumber := by
      change (data.shapeProblems source ++
        ExaminedCase.problems [] (examineAll data.cases)).filter Problem.isDuplicate = _
      rw [List.filter_append, filter_shapeProblems, List.nil_append, filter_problems]
    rw [hproblems, List.map_map, duplicateNumbers, List.map_filterMap, List.map_filterMap]
    simp only [shownAt?, Option.map_map]
    rfl
  · obtain ⟨-, -, hnumbered, hnodup, -⟩ := (isOk_validate_iff data source).1 hvalid
    rw [map_title hnumbered, List.nodup_map_iff_inj_on hnodup, ← eq_of_display_eq_iff]
    simp only [String.append_right_inj]

/-- A number and the numeral of another number make a valid collection with two titles. -/
theorem shown_duplicates_exact_of_two_cases :
    let entry (number : CaseNumber) : Case :=
      ⟨some number, none, none, none, none, none, none, none⟩
    let data : CaseData := ⟨[⟨"Dot", [entry (.number 1), entry (.text "2")], []⟩]⟩
    (data.validate "cases.json").isOk = true ∧
      (data.cases.map fun member => member.2.title).Nodup := by
  intro entry data
  obtain ⟨-, -, htitles⟩ := shown_duplicates_exact data "cases.json"
  have hvalid : (data.validate "cases.json").isOk = true := by
    rw [isOk_validate_iff]
    decide +kernel
  refine ⟨hvalid, (htitles hvalid).2 ?_⟩
  rintro ⟨n, hnumber, htext⟩
  -- the only number is one, and its numeral is not there
  obtain rfl : n = 1 := by
    rcases List.mem_cons.1 hnumber with h | h
    · exact CaseNumber.number.inj h
    · cases List.mem_singleton.1 h
  revert htext
  decide

/-- A number and its numeral make a valid collection, though the second case is shown like the first
one and has its title. -/
theorem shown_duplicate_missed :
    let entry (number : CaseNumber) : Case :=
      ⟨some number, none, none, none, none, none, none, none⟩
    let data : CaseData := ⟨[⟨"Test", [entry (.number 1), entry (.text "1")], []⟩]⟩
    (data.validate "test").isOk = true ∧ IsShownBefore data.cases 1 ∧
      ¬ IsDuplicate data.cases 1 ∧ ¬ (data.cases.map fun member => member.2.title).Nodup := by
  intro entry data
  have hvalid : (data.validate "test").isOk = true := by
    rw [isOk_validate_iff]
    decide +kernel
  exact ⟨hvalid, by decide, by decide, by decide⟩

end CaseData

end LastLayer
