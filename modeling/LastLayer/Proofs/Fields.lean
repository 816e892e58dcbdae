import LastLayer.Listing
import Mathlib.Data.List.DropRight

/-!
# Joining fields

Fields are trimmed before they are joined, and the blank ones are left out. So a joined text is put
together from pieces that are neither empty nor blank at an end (`Text.IsPiece`), with one space
between two of them (`Text.join`). Whatever blanks there are inside, it is such a piece itself,
unless no field is left to be joined (`Case.joinFields_singleton_joinFields`).

Therefore a joined text can take the place of its fields when more fields are joined
(`Case.joinFields_append_eq_joinFields`), and it does not matter in which way the texts of a case
are made from its fields: what is validated is what is listed as its setup and as its solution.
-/

namespace LastLayer

/-! ## Pieces -/

namespace Text

/-- A text is trimmed if no blank stands at its beginning or at its end. -/
def IsTrimmed (text : String) : Prop :=
  ∀ c, text.toList.head? = some c ∨ text.toList.getLast? = some c → isBlank c = false

/-- What is left of a field that is not blank: a trimmed text that is not empty. -/
structure IsPiece (text : String) : Prop where
  ne_empty : text ≠ ""
  isTrimmed : IsTrimmed text

/-- Two texts with a space between them, unless one of them is empty. -/
def join (front back : String) : String :=
  if front = "" then back else if back = "" then front else front ++ " " ++ back

variable {text : String}

theorem isTrimmed_trim (text : String) : IsTrimmed (trim text) := by
  intro c hc
  rw [trim, String.toList_ofList] at hc
  rcases hc with hhead | hlast
  · exact not_isBlank_of_head?_strip hhead
  · exact not_isBlank_of_getLast?_strip hlast

/-- Trimming leaves a trimmed text as it is. -/
theorem IsTrimmed.trim_eq (h : IsTrimmed text) : trim text = text := by
  have hfront : text.toList.dropWhile isBlank = text.toList := by
    rw [List.dropWhile_eq_self_iff]
    intro hlength
    rw [h _ (.inl (List.head?_eq_getElem? ▸ List.getElem?_eq_getElem hlength))]
    exact Bool.false_ne_true
  have hback : text.toList.rdropWhile isBlank = text.toList := by
    rw [List.rdropWhile_eq_self_iff]
    intro hne
    rw [h _ (.inr (List.getLast?_eq_getLast_of_ne_nil hne))]
    exact Bool.false_ne_true
  have hstrip : strip text.toList = text.toList := by
    -- stripping is dropping the blanks at one end and then at the other
    show (text.toList.dropWhile isBlank).rdropWhile isBlank = text.toList
    rw [hfront, hback]
  rw [trim, hstrip, String.ofList_toList]

/-- Nothing is left of a text just if it is blank all through. -/
theorem trim_eq_empty_iff : trim text = "" ↔ ∀ c ∈ text.toList, isBlank c = true := by
  have hstrip : trim text = "" ↔ (text.toList.dropWhile isBlank).rdropWhile isBlank = [] :=
    String.ofList_eq_empty_iff
  rw [hstrip, ← List.dropWhile_eq_nil_iff]
  constructor
  · intro h
    rw [List.rdropWhile_eq_nil_iff] at h
    -- the first character behind the blanks at the beginning would not be blank
    have hhead := List.head?_dropWhile_not isBlank text.toList
    cases hrest : text.toList.dropWhile isBlank with
    | nil => rfl
    | cons c cs =>
      rw [hrest, List.head?_cons] at hhead
      have hblank : isBlank c = true := h c (hrest ▸ List.mem_cons_self)
      exact absurd hblank (by simpa using hhead)
  · intro h
    rw [h, List.rdropWhile_nil]

theorem nonblank?_eq_some_iff {piece : String} :
    nonblank? text = some piece ↔ trim text = piece ∧ piece ≠ "" := by
  rw [nonblank?]
  split
  next h =>
    rw [String.isEmpty_iff.1 h]
    constructor
    · rintro ⟨⟩
    · rintro ⟨rfl, hne⟩
      exact absurd rfl hne
  next h =>
    rw [Option.some_inj]
    refine (and_iff_left_of_imp ?_).symm
    rintro rfl hempty
    exact h (String.isEmpty_iff.2 hempty)

theorem nonblank?_eq_none_iff : nonblank? text = none ↔ ∀ c ∈ text.toList, isBlank c = true := by
  rw [nonblank?, ← trim_eq_empty_iff, ← String.isEmpty_iff]
  split
  next h => exact iff_of_true rfl h
  next h => exact iff_of_false (Option.some_ne_none _) h

theorem isPiece_of_nonblank? {piece : String} (h : nonblank? text = some piece) :
    IsPiece piece := by
  obtain ⟨rfl, hne⟩ := nonblank?_eq_some_iff.1 h
  exact ⟨hne, isTrimmed_trim text⟩

theorem IsPiece.nonblank?_eq (h : IsPiece text) : nonblank? text = some text :=
  nonblank?_eq_some_iff.2 ⟨h.isTrimmed.trim_eq, h.ne_empty⟩

/-- Whatever stands between two pieces, together they are a piece. -/
theorem IsPiece.append {front back : String} (hfront : IsPiece front) (hback : IsPiece back)
    (middle : String) : IsPiece (front ++ middle ++ back) where
  ne_empty h := hfront.ne_empty (String.append_eq_empty_iff.1 (String.append_eq_empty_iff.1 h).1).1
  isTrimmed c hc := by
    have hfront_ne : front.toList ≠ [] := mt String.toList_eq_nil_iff.1 hfront.ne_empty
    have hback_ne : back.toList ≠ [] := mt String.toList_eq_nil_iff.1 hback.ne_empty
    rw [String.toList_append, String.toList_append] at hc
    -- it begins as the piece in front and ends as the piece behind
    rw [List.append_assoc, List.head?_append_of_ne_nil _ hfront_ne, ← List.append_assoc,
      List.getLast?_append_of_ne_nil _ hback_ne] at hc
    rcases hc with hhead | hlast
    · exact hfront.isTrimmed c (.inl hhead)
    · exact hback.isTrimmed c (.inr hlast)

theorem isPiece_intercalate {pieces : List String} (hpieces : ∀ piece ∈ pieces, IsPiece piece)
    (hne : pieces ≠ []) : IsPiece (" ".intercalate pieces) := by
  induction pieces with
  | nil => exact absurd rfl hne
  | cons piece pieces ih =>
    have hpiece : IsPiece piece := hpieces piece List.mem_cons_self
    rcases eq_or_ne pieces [] with rfl | hrest
    · rwa [String.intercalate_singleton]
    · rw [String.intercalate_cons_of_ne_nil hrest]
      exact hpiece.append (ih (fun other hother => hpieces other (.tail piece hother)) hrest) " "

/-- Pieces are put together in one go, or in two parts that are put together then. -/
theorem intercalate_append_eq_join {front back : List String}
    (hfront : ∀ piece ∈ front, IsPiece piece) (hback : ∀ piece ∈ back, IsPiece piece) :
    " ".intercalate (front ++ back) = join (" ".intercalate front) (" ".intercalate back) := by
  rcases eq_or_ne front [] with rfl | hfront_ne
  · rw [String.intercalate_nil, join, if_pos rfl, List.nil_append]
  rw [join, if_neg (isPiece_intercalate hfront hfront_ne).ne_empty]
  rcases eq_or_ne back [] with rfl | hback_ne
  · rw [String.intercalate_nil, if_pos rfl, List.append_nil]
  · rw [if_neg (isPiece_intercalate hback hback_ne).ne_empty,
      String.intercalate_append_of_ne_nil hfront_ne hback_ne]

end Text

/-! ## Joined fields -/

namespace Case

/-- A field is blank if it is missing or if it holds nothing but blanks. -/
def IsBlankField (field : Option String) : Prop :=
  ∀ text ∈ field, ∀ c ∈ text.toList, Text.isBlank c = true

theorem nonblank?_eq_none_iff {field : Option String} :
    nonblank? field = none ↔ IsBlankField field := by
  rw [nonblank?, Option.bind_eq_none_iff]
  exact forall₂_congr fun _ _ => Text.nonblank?_eq_none_iff

instance (field : Option String) : Decidable (IsBlankField field) :=
  decidable_of_iff _ nonblank?_eq_none_iff

theorem isPiece_of_nonblank? {field : Option String} {piece : String}
    (h : nonblank? field = some piece) : Text.IsPiece piece := by
  obtain ⟨text, -, hpiece⟩ := Option.bind_eq_some_iff.1 h
  exact Text.isPiece_of_nonblank? hpiece

/-- A piece stays as it is when it is trimmed as a field. -/
theorem nonblank?_of_isPiece {piece : String} (h : Text.IsPiece piece) :
    nonblank? (some piece) = some piece := by
  rw [nonblank?, Option.bind_some, h.nonblank?_eq]

theorem nonblank?_nonblank? (field : Option String) :
    nonblank? (nonblank? field) = nonblank? field := by
  cases h : nonblank? field with
  | none => rfl
  | some piece => exact nonblank?_of_isPiece (isPiece_of_nonblank? h)

section

variable {fields : List (Option String)}

theorem isPiece_of_mem_pieces {piece : String} (h : piece ∈ fields.filterMap nonblank?) :
    Text.IsPiece piece := by
  obtain ⟨field, -, hpiece⟩ := List.mem_filterMap.1 h
  exact isPiece_of_nonblank? hpiece

/-- No piece is left of some fields just if they are all blank. -/
theorem pieces_eq_nil_iff :
    fields.filterMap nonblank? = [] ↔ ∀ field ∈ fields, IsBlankField field := by
  rw [List.filterMap_eq_nil_iff]
  exact forall₂_congr fun field _ => nonblank?_eq_none_iff

theorem isPiece_joinFields (h : fields.filterMap nonblank? ≠ []) :
    Text.IsPiece (joinFields fields) :=
  Text.isPiece_intercalate (fun _ => isPiece_of_mem_pieces) h

theorem joinFields_of_pieces_eq_nil (h : fields.filterMap nonblank? = []) :
    joinFields fields = "" := by
  rw [joinFields, h, String.intercalate_nil]

theorem joinFields_eq_empty_iff :
    joinFields fields = "" ↔ ∀ field ∈ fields, IsBlankField field := by
  rw [← pieces_eq_nil_iff]
  refine ⟨fun hempty => ?_, joinFields_of_pieces_eq_nil⟩
  by_contra hne
  exact (isPiece_joinFields hne).ne_empty hempty

end

theorem isTrimmed_joinFields (fields : List (Option String)) :
    Text.IsTrimmed (joinFields fields) := by
  rcases eq_or_ne (fields.filterMap nonblank?) [] with hnil | hne
  · rw [joinFields_of_pieces_eq_nil hnil]
    rintro c (hhead | hlast)
    · cases hhead
    · cases hlast
  · exact (isPiece_joinFields hne).isTrimmed

/-- A joined text stays as it is when it is taken for a field. -/
theorem joinFields_singleton_joinFields (fields : List (Option String)) :
    joinFields [some (joinFields fields)] = joinFields fields := by
  rcases eq_or_ne (fields.filterMap nonblank?) [] with hnil | hne
  · -- the empty text is a blank field
    rw [joinFields_of_pieces_eq_nil hnil]
    rfl
  · have hpiece : nonblank? (some (joinFields fields)) = some (joinFields fields) :=
      nonblank?_of_isPiece (isPiece_joinFields hne)
    rw [joinFields, List.filterMap_cons_some hpiece, List.filterMap_nil,
      String.intercalate_singleton]

/-- Fields are joined one part after the other. -/
theorem joinFields_append (xs ys : List (Option String)) :
    joinFields (xs ++ ys) = Text.join (joinFields xs) (joinFields ys) := by
  rw [joinFields, List.filterMap_append]
  exact Text.intercalate_append_eq_join (fun _ => isPiece_of_mem_pieces)
    fun _ => isPiece_of_mem_pieces

/-- Two parts of some fields may be joined by themselves first. -/
theorem joinFields_append_eq_joinFields (xs ys : List (Option String)) :
    joinFields (xs ++ ys) = joinFields [some (joinFields xs), some (joinFields ys)] := by
  calc joinFields (xs ++ ys)
      = Text.join (joinFields xs) (joinFields ys) := joinFields_append xs ys
    _ = Text.join (joinFields [some (joinFields xs)]) (joinFields [some (joinFields ys)]) := by
        rw [joinFields_singleton_joinFields, joinFields_singleton_joinFields]
    _ = joinFields ([some (joinFields xs)] ++ [some (joinFields ys)]) :=
        (joinFields_append _ _).symm

/-! ## The texts of a case -/

variable {entry : Case}

/-- What is validated is the setup with its rotations and then the solution. -/
theorem validationAlgorithm_eq_joinFields (entry : Case) :
    entry.validationAlgorithm =
      joinFields [some entry.setupSequence, some entry.solutionSequence] :=
  joinFields_append_eq_joinFields [entry.rotations, entry.setup] [entry.algorithm, entry.auf]

theorem joinFields_nonblank?_cons (field : Option String) (fields : List (Option String)) :
    joinFields (nonblank? field :: fields) = joinFields (field :: fields) := by
  rw [joinFields, joinFields, List.filterMap_cons, nonblank?_nonblank?, List.filterMap_cons]

theorem previewAlgorithm_of_not_blank (h : ¬ IsBlankField entry.algorithm) :
    entry.previewAlgorithm = entry.solutionSequence := by
  obtain ⟨piece, hpiece⟩ := Option.ne_none_iff_exists'.1 (mt nonblank?_eq_none_iff.1 h)
  -- the algorithm is trimmed before it is joined, which makes no difference
  rw [previewAlgorithm, hpiece, Option.some_or, ← hpiece, joinFields_nonblank?_cons]
  rfl

theorem previewAlgorithm_of_blank (h : IsBlankField entry.algorithm) :
    entry.previewAlgorithm = joinFields [entry.setup, entry.auf] := by
  rw [previewAlgorithm, nonblank?_eq_none_iff.2 h, Option.none_or, joinFields_nonblank?_cons]

/-- Fields may be joined in parts: two parts are joined as fields of their own, which puts a single
space between them unless one of them is empty. A joined text has no blank at its ends, and it is
empty just if all fields are missing or blank. So the text of a case that is validated is joined
from the two that are listed, its setup and its solution; and what is previewed is the solution, or
the setup and the last turns if there is no standard algorithm. -/
theorem joined_in_parts :
    (∀ xs ys : List (Option String),
      joinFields (xs ++ ys) = joinFields [some (joinFields xs), some (joinFields ys)] ∧
      joinFields (xs ++ ys) = Text.join (joinFields xs) (joinFields ys)) ∧
    (∀ (fields : List (Option String)) (c : Char),
      (joinFields fields).toList.head? = some c ∨ (joinFields fields).toList.getLast? = some c →
        Text.isBlank c = false) ∧
    (∀ fields : List (Option String),
      joinFields fields = "" ↔ ∀ field ∈ fields, IsBlankField field) ∧
    ∀ entry : Case,
      entry.validationAlgorithm =
        joinFields [some entry.setupSequence, some entry.solutionSequence] ∧
      (∀ pattern,
        "  Setup: " ++ (if entry.setupSequence = "" then "None" else entry.setupSequence) ∈
          entry.lines pattern ∧
        "  Standard Alg: " ++ entry.solutionSequence ∈ entry.lines pattern) ∧
      (¬ IsBlankField entry.algorithm → entry.previewAlgorithm = entry.solutionSequence) ∧
      (IsBlankField entry.algorithm →
        entry.previewAlgorithm = joinFields [entry.setup, entry.auf]) := by
  refine ⟨?_, isTrimmed_joinFields, fun _ => joinFields_eq_empty_iff, fun entry => ⟨?_, ?_, ?_, ?_⟩⟩
  · intro xs ys
    exact ⟨joinFields_append_eq_joinFields xs ys, joinFields_append xs ys⟩
  · exact validationAlgorithm_eq_joinFields entry
  · intro pattern
    simp [lines]
  · exact previewAlgorithm_of_not_blank
  · exact previewAlgorithm_of_blank

/-- Blanks at the ends of a field are lost, and those inside of it are kept. -/
theorem joined_in_parts_of_padded_fields :
    let first : List (Option String) := [some "\u2003R  U ", none]
    let last : List (Option String) := [some " \t", some "F\u00A0"]
    let full : Case :=
      { number := none, setup := some "F ", rotations := some "y", algorithm := some "\tR U ",
        auf := some " ", code := none, probability := none, category := none }
    let bare : Case := { full with algorithm := some "\u3000", auf := some "U2" }
    joinFields (first ++ last) = "R  U F" ∧
      joinFields [some (joinFields first), some (joinFields last)] = "R  U F" ∧
      (joinFields first).toList.getLast? = some 'U' ∧ Text.isBlank 'U' = false ∧
      full.validationAlgorithm = joinFields [some "y F", some "R U"] ∧
      ¬ IsBlankField full.algorithm ∧ full.previewAlgorithm = full.solutionSequence ∧
      IsBlankField bare.algorithm ∧ bare.previewAlgorithm = joinFields [bare.setup, bare.auf] := by
  intro first last full bare
  obtain ⟨hparts, hends, -, htexts⟩ := joined_in_parts
  have hjoined : joinFields (first ++ last) = "R  U F" := by decide +kernel
  have hlast : (joinFields first).toList.getLast? = some 'U' := by decide +kernel
  have hfull : ¬ IsBlankField full.algorithm := by decide +kernel
  have hbare : IsBlankField bare.algorithm := by decide +kernel
  obtain ⟨hvalidated, -, hpreview, -⟩ := htexts full
  obtain ⟨-, -, -, hfallback⟩ := htexts bare
  have hsetup : full.setupSequence = "y F" := by decide +kernel
  have hsolution : full.solutionSequence = "R U" := by decide +kernel
  refine ⟨hjoined, ?_, hlast, hends first 'U' (.inr hlast), ?_, hfull, hpreview hfull, hbare,
    hfallback hbare⟩
  · rw [← (hparts first last).1, hjoined]
  · rw [hvalidated, hsetup, hsolution]

end Case

end LastLayer
