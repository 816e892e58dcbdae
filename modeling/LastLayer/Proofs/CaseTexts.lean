import LastLayer.Pattern
import LastLayer.Proofs.Notation.Fault
import LastLayer.Proofs.Notation.Separators
import LastLayer.Proofs.Validation

/-!
# The moves of a case, field by field

The texts of a case are joined from fields that are texts in move notation themselves. Blanks at the
ends of a field separate nothing, and the space between two fields continues no item, so the tokens
of a joined text are those of its fields, one field after the other (`Case.scan_joinFields`).

What stands before a field matters in two ways. Its moves count against the limit when a group of
the field closes, so fields that can be read by themselves can be read together as long as all their
moves are within the limit (`Case.run_fields`). And its open groups may be closed by the field. That
is why validating a case, which reads all fields together, does not always tell whether those that
are previewed can be read (`Case.exists_parse_previewAlgorithm_iff`).
-/

namespace LastLayer

open Notation

/-! ## Tokens -/

namespace Notation.Token

/-- Texts with one space between them are scanned one after the other. -/
theorem scan_intercalate (texts : List String) :
    scan (" ".intercalate texts).toList = texts.flatMap fun text => scan text.toList := by
  induction texts with
  | nil =>
    rw [String.intercalate_nil]
    exact scan_nil
  | cons text texts ih =>
    cases texts with
    | nil => simp
    | cons next texts =>
      have hspace : Delimited (' ' :: (" ".intercalate (next :: texts)).toList) :=
        delimited_cons.2 (by decide)
      have htext : (" ".intercalate (text :: next :: texts)).toList =
          text.toList ++ ' ' :: (" ".intercalate (next :: texts)).toList := by
        rw [String.intercalate_cons_cons, String.append_assoc, String.toList_append,
          String.toList_append]
        rfl
      rw [htext, scan_append _ hspace, scan_separator (by decide), List.flatMap_cons, ← ih]

end Notation.Token

namespace Case

/-- The tokens of a field; a missing one has none. -/
def tokens (field : Option String) : List Token :=
  Token.scan (field.getD "").toList

/-- What a field is read as by itself; a missing one is read as no moves. -/
def readField (field : Option String) : Except Notation.Error Algorithm :=
  Algorithm.parse (field.getD "")

/-- The fields that hold moves, in the order in which they are made. -/
def moveFields (entry : Case) : List (Option String) :=
  [entry.rotations, entry.setup, entry.algorithm, entry.auf]

/-- The fields that a preview shows, in order: the setup takes the place of a blank algorithm. -/
def previewFields (entry : Case) : List (Option String) :=
  if nonblank? entry.algorithm = none then [entry.setup, entry.auf]
  else [entry.algorithm, entry.auf]

/-- The fields with moves that a preview leaves out, in order. -/
def leadFields (entry : Case) : List (Option String) :=
  if nonblank? entry.algorithm = none then [entry.rotations] else [entry.rotations, entry.setup]

/-- A field loses no tokens when it is trimmed, and a blank field has none. -/
theorem tokens_eq_elim (field : Option String) :
    tokens field = (nonblank? field).elim [] fun text => Token.scan text.toList := by
  cases field with
  | none => exact Token.scan_nil
  | some text =>
    have htrim : Token.scan (Text.trim text).toList = Token.scan text.toList := by
      rw [Text.trim, String.toList_ofList, Token.scan_strip]
    rw [tokens, Option.getD_some, ← htrim]
    simp only [nonblank?, Option.bind_some, Text.nonblank?]
    split
    next hempty =>
      rw [String.isEmpty_iff.1 hempty]
      exact Token.scan_nil
    next => rfl

section

variable {field : Option String}

theorem readField_eq_ok_iff {moves : Algorithm} :
    readField field = .ok moves ↔
      Expansion.start.run (tokens field) = .ok ⟨moves.toArray, []⟩ :=
  Algorithm.parse_eq_ok_iff

theorem readField_eq_error_iff {error : Notation.Error} (h : error ≠ .unclosedGroup) :
    readField field = .error error ↔ Expansion.start.run (tokens field) = .error error :=
  Algorithm.parse_eq_error_iff h

theorem tokens_of_blank (h : nonblank? field = none) : tokens field = [] := by
  rw [tokens_eq_elim, h]
  rfl

/-- Missing and blank fields are read as no moves. -/
theorem readField_of_blank (h : nonblank? field = none) : readField field = .ok [] := by
  rw [readField_eq_ok_iff, tokens_of_blank h]
  rfl

end

/-- Nothing is glued or lost when fields are joined. -/
theorem scan_joinFields (fields : List (Option String)) :
    Token.scan (joinFields fields).toList = fields.flatMap tokens := by
  rw [joinFields, Token.scan_intercalate]
  induction fields with
  | nil => rfl
  | cons field fields ih =>
    rw [List.flatMap_cons, ← ih, tokens_eq_elim, List.filterMap_cons]
    cases nonblank? field with
    | none => rfl
    | some text => rfl

theorem scan_validationAlgorithm (entry : Case) :
    Token.scan entry.validationAlgorithm.toList = entry.moveFields.flatMap tokens :=
  scan_joinFields entry.moveFields

theorem scan_previewAlgorithm (entry : Case) :
    Token.scan entry.previewAlgorithm.toList = entry.previewFields.flatMap tokens := by
  have htrimmed : ∀ field, tokens (nonblank? field) = tokens field := by
    intro field
    rw [tokens_eq_elim field, tokens]
    cases nonblank? field with
    | none => exact Token.scan_nil
    | some text => rfl
  rw [previewAlgorithm, scan_joinFields, List.flatMap_cons, previewFields]
  cases halgorithm : nonblank? entry.algorithm with
  | none =>
    rw [if_pos rfl, Option.none_or, htrimmed]
    rfl
  | some text =>
    rw [if_neg (Option.some_ne_none text), Option.some_or, ← halgorithm, htrimmed]
    rfl

/-- What is validated is what is previewed, behind the fields that a preview leaves out. -/
theorem scan_validationAlgorithm_eq_append (entry : Case) :
    Token.scan entry.validationAlgorithm.toList =
      Token.scan (joinFields entry.leadFields).toList ++
        Token.scan entry.previewAlgorithm.toList := by
  rw [scan_validationAlgorithm, scan_joinFields, scan_previewAlgorithm, moveFields, leadFields,
    previewFields]
  by_cases hblank : nonblank? entry.algorithm = none
  · -- the blank algorithm between the setup and the last field has no tokens
    simp [hblank, tokens_of_blank hblank]
  · simp [hblank]

/-! ## Reading field by field -/

variable {fields : List (Option String)}

/-- A field that can be read by itself puts its moves behind those before it, as long as all of them
together are within the limit. -/
theorem run_tokens {field : Option String} {moves : Algorithm} (h : readField field = .ok moves)
    {before : Array Move} (hlimit : before.size + moves.length ≤ maxMoves) :
    (Expansion.mk before []).run (tokens field) = .ok ⟨before ++ moves.toArray, []⟩ := by
  obtain ⟨phrase, htext, hlimits, rfl⟩ := exists_phrase_of_parse h
  -- no group of the field gets longer than the field itself
  have hbehind : phrase.WithinLimits before.size :=
    phrase.withinLimits_of_length_le hlimits (Nat.zero_le _) hlimit
  have hrun := Expansion.run_scan_text phrase ⟨before, []⟩ delimited_nil hbehind
  rwa [List.append_nil, htext, Token.scan_nil] at hrun

theorem run_fields {parts : List Algorithm}
    (h : List.Forall₂ (fun field moves => readField field = .ok moves) fields parts)
    {before : Array Move} (hlimit : before.size + parts.flatten.length ≤ maxMoves) :
    (Expansion.mk before []).run (fields.flatMap tokens) =
      .ok ⟨before ++ parts.flatten.toArray, []⟩ := by
  induction h generalizing before with
  | nil => simp
  | @cons field moves fields parts hfield _ ih =>
    rw [List.flatten_cons, List.length_append] at hlimit
    have hfirst : before.size + moves.length ≤ maxMoves := by omega
    have hrest : (before ++ moves.toArray).size + parts.flatten.length ≤ maxMoves := by
      simpa [Nat.add_assoc] using hlimit
    rw [List.flatMap_cons, Expansion.run_append, run_tokens hfield hfirst]
    change (Expansion.mk (before ++ moves.toArray) []).run (fields.flatMap tokens) = _
    rw [ih hrest]
    simp

/-- A text whose tokens are those of some fields is read as what the fields are read as. -/
theorem parse_of_fields {text : String} {parts : List Algorithm}
    (htext : Token.scan text.toList = fields.flatMap tokens)
    (h : List.Forall₂ (fun field moves => readField field = .ok moves) fields parts)
    (hlimit : parts.flatten.length ≤ maxMoves) : Algorithm.parse text = .ok parts.flatten := by
  have hrun : Expansion.start.run (fields.flatMap tokens) =
      .ok ⟨#[] ++ parts.flatten.toArray, []⟩ :=
    run_fields h (by simpa using hlimit)
  rw [Algorithm.parse_eq_ok_iff, htext, hrun, Array.empty_append]

/-- Fields that can be read by themselves leave no group open behind other moves, either, unless one
of their groups is too long there. -/
theorem run_readable_fields (h : ∀ field ∈ fields, ∃ moves, readField field = .ok moves)
    (before : Array Move) :
    (∃ count, (Expansion.mk before []).run (fields.flatMap tokens) = .error (.repeatCount count)) ∨
      ∃ current, (Expansion.mk before []).run (fields.flatMap tokens) = .ok ⟨current, []⟩ := by
  induction fields generalizing before with
  | nil => exact .inr ⟨before, rfl⟩
  | cons field fields ih =>
    obtain ⟨moves, hfield⟩ := h field List.mem_cons_self
    rw [readField_eq_ok_iff] at hfield
    rw [List.flatMap_cons, Expansion.run_append, ← Expansion.behind_start]
    rcases Expansion.run_behind before .start (tokens field) with ⟨count, hcount⟩ | hsame
    · left
      exact ⟨count, by rw [hcount]; rfl⟩
    · rw [hsame, hfield, Except.map, Expansion.behind_flat]
      exact ih (fun other hother => h other (List.mem_cons_of_mem field hother)) _

/-- A token at which a field fails by itself fails behind other fields, too, unless the reading has
ended at a repeat count before that. -/
theorem run_fault_behind_fields (h : ∀ field ∈ fields, ∃ moves, readField field = .ok moves)
    {front : List Token} {fault : Token} {next : Expansion} {error : Notation.Error}
    (hfront : Expansion.start.run front = .ok next) (hfault : next.step fault = .error error)
    (herror : ∀ count, error ≠ .repeatCount count) (back : List Token) :
    (∃ count, Expansion.start.run (fields.flatMap tokens ++ front) = .error (.repeatCount count) ∧
        Expansion.start.run (fields.flatMap tokens ++ (front ++ fault :: back)) =
          .error (.repeatCount count)) ∨
      Expansion.start.run (fields.flatMap tokens ++ (front ++ fault :: back)) = .error error := by
  rcases run_readable_fields h #[] with ⟨count, hcount⟩ | ⟨current, hcurrent⟩
  · left
    change Expansion.start.run (fields.flatMap tokens) = _ at hcount
    refine ⟨count, ?_, ?_⟩ <;> rw [Expansion.run_append, hcount] <;> rfl
  · -- the fields leave no group open, so what follows is read behind their moves
    change Expansion.start.run (fields.flatMap tokens) = _ at hcurrent
    have hsplit : ∀ more, Expansion.start.run (fields.flatMap tokens ++ more) =
        (Expansion.start.behind current).run more := by
      intro more
      rw [Expansion.run_append, hcurrent, Expansion.behind_start]
      rfl
    rw [hsplit, hsplit, Expansion.run_append]
    rcases Expansion.run_behind current .start front with ⟨count, hcount⟩ | hsame
    · left
      exact ⟨count, hcount, by rw [hcount]; rfl⟩
    · right
      rw [hsame, hfront]
      change (next.behind current).run (fault :: back) = .error error
      rw [Expansion.run_cons, Expansion.step_behind_eq_error current hfault herror]
      rfl

/-- If all fields of a case can be read, and their moves are within the limit together, then the
joined texts are read as the moves of their fields. -/
theorem parse_joined_fields {entry : Case} {rotations setup algorithm auf : Algorithm}
    (hrotations : readField entry.rotations = .ok rotations)
    (hsetup : readField entry.setup = .ok setup)
    (halgorithm : readField entry.algorithm = .ok algorithm) (hauf : readField entry.auf = .ok auf)
    (hlimit : rotations.length + setup.length + algorithm.length + auf.length ≤ maxMoves) :
    Algorithm.parse entry.validationAlgorithm = .ok (rotations ++ setup ++ algorithm ++ auf) ∧
      Algorithm.parse entry.previewAlgorithm =
        .ok ((if nonblank? entry.algorithm = none then setup else algorithm) ++ auf) := by
  constructor
  · have hread := parse_of_fields (scan_validationAlgorithm entry)
      (.cons hrotations (.cons hsetup (.cons halgorithm (.cons hauf .nil))))
      (by simpa [Nat.add_assoc] using hlimit)
    simpa using hread
  · have htokens := scan_previewAlgorithm entry
    rw [previewFields] at htokens
    by_cases hblank : nonblank? entry.algorithm = none
    · rw [if_pos hblank] at htokens ⊢
      have hread := parse_of_fields htokens (.cons hsetup (.cons hauf .nil)) (by simp; omega)
      simpa using hread
    · rw [if_neg hblank] at htokens ⊢
      have hread := parse_of_fields htokens (.cons halgorithm (.cons hauf .nil)) (by simp; omega)
      simpa using hread

/-- A fault of a field behind fields that can be read is a fault of all moves of the case, unless
the reading ends at a repeat count before it gets there. -/
theorem parse_validationAlgorithm_of_fault {entry : Case} {earlier later : List (Option String)}
    {field : Option String} {error : Notation.Error}
    (hfields : entry.moveFields = earlier ++ field :: later)
    (hearlier : ∀ other ∈ earlier, ∃ moves, readField other = .ok moves)
    (herror : error = .unexpectedClose ∨ ∃ c, error = .invalidMove c)
    (hfield : readField field = .error error) :
    ∃ front fault back, tokens field = front ++ fault :: back ∧
      (∃ next, Expansion.start.run front = .ok next ∧ next.step fault = .error error) ∧
      ((∃ count,
          Expansion.start.run (earlier.flatMap tokens ++ front) = .error (.repeatCount count) ∧
          Algorithm.parse entry.validationAlgorithm = .error (.repeatCount count)) ∨
        Algorithm.parse entry.validationAlgorithm = .error error) := by
  have hclose : error ≠ .unclosedGroup := by
    rcases herror with rfl | ⟨c, rfl⟩ <;> rintro ⟨⟩
  have hcount : ∀ count, error ≠ .repeatCount count := by
    rcases herror with rfl | ⟨c, rfl⟩ <;> rintro count ⟨⟩
  obtain ⟨front, fault, back, htokens, next, hfront, hfault⟩ :=
    Expansion.exists_fault ((readField_eq_error_iff hclose).1 hfield)
  refine ⟨front, fault, back, htokens, ⟨next, hfront, hfault⟩, ?_⟩
  have hscan : Token.scan entry.validationAlgorithm.toList =
      earlier.flatMap tokens ++ (front ++ fault :: (back ++ later.flatMap tokens)) := by
    rw [scan_validationAlgorithm, hfields, List.flatMap_append, List.flatMap_cons, htokens,
      List.append_assoc, List.cons_append]
  rcases run_fault_behind_fields hearlier hfront hfault hcount (back ++ later.flatMap tokens) with
    ⟨count, hbefore, hwhole⟩ | hwhole
  · left
    refine ⟨count, hbefore, ?_⟩
    rw [Algorithm.parse_eq_error_iff (by rintro ⟨⟩), hscan, hwhole]
  · right
    rw [Algorithm.parse_eq_error_iff hclose, hscan, hwhole]

/-- The fields of a case are read one by one. No token of a joined text reaches over the end of a
field. A missing or blank field is read as no moves. If all fields can be read, and their moves are
within the limit together, then the joined texts are read as the moves of the fields, one field
after the other, where a preview takes the setup for a blank algorithm. A character that starts no
move, or a parenthesis without a group, that makes a field fail behind fields that can be read makes
all moves of the case fail for the same reason, unless a group in front of it is too long. -/
theorem joined_fields_are_read_one_by_one (entry : Case) :
    (Token.scan entry.validationAlgorithm.toList = entry.moveFields.flatMap tokens ∧
      Token.scan entry.previewAlgorithm.toList = entry.previewFields.flatMap tokens) ∧
    (∀ field ∈ entry.moveFields, nonblank? field = none → readField field = .ok []) ∧
    (∀ rotations setup algorithm auf : Algorithm,
      readField entry.rotations = .ok rotations → readField entry.setup = .ok setup →
      readField entry.algorithm = .ok algorithm → readField entry.auf = .ok auf →
      rotations.length + setup.length + algorithm.length + auf.length ≤ maxMoves →
        Algorithm.parse entry.validationAlgorithm = .ok (rotations ++ setup ++ algorithm ++ auf) ∧
        Algorithm.parse entry.previewAlgorithm =
          .ok ((if nonblank? entry.algorithm = none then setup else algorithm) ++ auf)) ∧
    ∀ earlier field later error, entry.moveFields = earlier ++ field :: later →
      (∀ other ∈ earlier, ∃ moves, readField other = .ok moves) →
      (error = .unexpectedClose ∨ ∃ c, error = .invalidMove c) → readField field = .error error →
        ∃ front fault back, tokens field = front ++ fault :: back ∧
          (∃ next, Expansion.start.run front = .ok next ∧ next.step fault = .error error) ∧
          ((∃ count,
              Expansion.start.run (earlier.flatMap tokens ++ front) = .error (.repeatCount count) ∧
              Algorithm.parse entry.validationAlgorithm = .error (.repeatCount count)) ∨
            Algorithm.parse entry.validationAlgorithm = .error error) := by
  refine ⟨⟨scan_validationAlgorithm entry, scan_previewAlgorithm entry⟩,
    fun field _ hblank => readField_of_blank hblank, ?_, ?_⟩
  · intro rotations setup algorithm auf hrotations hsetup halgorithm hauf hlimit
    exact parse_joined_fields hrotations hsetup halgorithm hauf hlimit
  · intro earlier field later error hfields hearlier herror hfield
    exact parse_validationAlgorithm_of_fault hfields hearlier herror hfield

/-- A blank algorithm is skipped, and a mark in front of an algorithm is no suffix of the setup. -/
theorem joined_fields_are_read_one_by_one_of_cases :
    let sound : Case :=
      { number := none, setup := some " (R)2", rotations := none, algorithm := some " ",
        auf := some "U", code := none, probability := none, category := none }
    let faulty : Case := { sound with setup := some "U", algorithm := some "\x27R" }
    (Algorithm.parse sound.validationAlgorithm =
        .ok [⟨.R, .quarter⟩, ⟨.R, .quarter⟩, ⟨.U, .quarter⟩] ∧
      Algorithm.parse sound.previewAlgorithm =
        .ok [⟨.R, .quarter⟩, ⟨.R, .quarter⟩, ⟨.U, .quarter⟩]) ∧
    ((∃ count, Algorithm.parse faulty.validationAlgorithm = .error (.repeatCount count)) ∨
      Algorithm.parse faulty.validationAlgorithm = .error (.invalidMove '\x27')) := by
  intro sound faulty
  have hsetup : readField sound.setup = .ok [⟨.R, .quarter⟩, ⟨.R, .quarter⟩] := by decide +kernel
  have hauf : readField sound.auf = .ok [⟨.U, .quarter⟩] := by decide +kernel
  have hmark : readField faulty.algorithm = .error (.invalidMove '\x27') := by decide +kernel
  have hmissing : readField none = .ok [] := readField_of_blank rfl
  have hblank : readField sound.algorithm = .ok [] := readField_of_blank (by decide)
  obtain ⟨-, -, hread, -⟩ := joined_fields_are_read_one_by_one sound
  obtain ⟨-, -, -, hfail⟩ := joined_fields_are_read_one_by_one faulty
  constructor
  · exact hread [] _ [] _ hmissing hsetup hblank hauf (by decide)
  · have hearlier : ∀ other ∈ [none, some "U"], ∃ moves, readField other = .ok moves := by
      intro other hother
      rcases List.mem_pair.1 hother with rfl | rfl
      · exact ⟨_, hmissing⟩
      · exact ⟨_, hauf⟩
    obtain ⟨-, -, -, -, -, ⟨count, -, hcount⟩ | hcount⟩ :=
      hfail [none, some "U"] _ [some "U"] _ rfl hearlier (.inr ⟨_, rfl⟩) hmark
    · exact .inl ⟨count, hcount⟩
    · exact .inr hcount

/-! ## Previews of validated cases -/

/-- If all moves of a case can be read, then those that a preview shows can be read just if the
fields in front of them leave no group open. -/
theorem exists_parse_previewAlgorithm_iff {entry : Case} (h : entry.isReadable = true) :
    (∃ algorithm, Algorithm.parse entry.previewAlgorithm = .ok algorithm) ↔
      (joinFields entry.leadFields).toList.count '(' =
        (joinFields entry.leadFields).toList.count ')' := by
  rw [isReadable] at h
  cases hparse : Algorithm.parse entry.validationAlgorithm with
  | error error => rw [hparse] at h; cases h
  | ok algorithm =>
    have hrun := Algorithm.parse_eq_ok_iff.1 hparse
    rw [scan_validationAlgorithm_eq_append] at hrun
    exact Algorithm.exists_parse_iff_of_run_append hrun

end Case

theorem Pattern.previewOrPlain_of_parse {text : String} {algorithm : Algorithm}
    (h : Algorithm.parse text = .ok algorithm) :
    previewOrPlain text = ofAlgorithm algorithm := by
  rw [previewOrPlain, preview, h]
  rfl

namespace CaseData

/-- In a valid collection, the preview of a case can be read, and shows the pattern that its moves
solve and not the plain one in place of it, just if the fields that the preview leaves out have as
many opening as closing parentheses: the rotations, and the setup in front of an algorithm. -/
theorem validated_preview_readable_iff (data : CaseData) (source : String)
    (h : (data.validate source).isOk = true) :
    ∀ member ∈ data.cases,
      let preview := member.2.previewAlgorithm
      let lead := (Case.joinFields member.2.leadFields).toList
      (∃ algorithm, Algorithm.parse preview = .ok algorithm ∧
        Pattern.previewOrPlain preview = Pattern.ofAlgorithm algorithm) ↔
        lead.count '(' = lead.count ')' := by
  intro member hmember preview lead
  obtain ⟨-, -, -, -, hreadable⟩ := (isOk_validate_iff data source).1 h
  rw [← Case.exists_parse_previewAlgorithm_iff (hreadable member hmember)]
  exact exists_congr fun algorithm => and_iff_left_of_imp Pattern.previewOrPlain_of_parse

/-- A group that is opened and closed in front of the algorithm does no harm. -/
theorem validated_preview_readable_of_closed_group :
    let entry : Case :=
      { number := some (.number 1), setup := some "F)2", rotations := some "(y",
        algorithm := some "R U", auf := none, code := none, probability := none, category := none }
    let data : CaseData := ⟨[⟨"Test", [entry], []⟩]⟩
    (data.validate "test").isOk = true ∧
      ∃ algorithm, Algorithm.parse entry.previewAlgorithm = .ok algorithm ∧
        Pattern.previewOrPlain entry.previewAlgorithm = Pattern.ofAlgorithm algorithm := by
  intro entry data
  have hvalid : (data.validate "test").isOk = true := by
    rw [isOk_validate_iff]
    decide +kernel
  have hiff := validated_preview_readable_iff data "test" hvalid _ (List.mem_singleton_self _)
  exact ⟨hvalid, hiff.2 (by decide +kernel)⟩

/-- A group may start in the setup and end in the algorithm; then the moves of the case can be read,
but the algorithm by itself cannot. -/
theorem validated_preview_unreadable :
    let entry : Case :=
      { number := some (.number 1), setup := some "(", rotations := none, algorithm := some ")",
        auf := none, code := none, probability := none, category := none }
    let data : CaseData := ⟨[⟨"Test", [entry], []⟩]⟩
    (data.validate "test").isOk = true ∧ (∃ member ∈ data.cases, member.2 = entry) ∧
      Algorithm.parse entry.previewAlgorithm = .error .unexpectedClose ∧
      Pattern.previewOrPlain entry.previewAlgorithm = Pattern.plain := by
  intro entry data
  have hvalid : (data.validate "test").isOk = true := by
    rw [isOk_validate_iff]
    decide +kernel
  have hparse : Algorithm.parse entry.previewAlgorithm = .error .unexpectedClose := by
    decide +kernel
  refine ⟨hvalid, ⟨_, List.mem_singleton_self _, rfl⟩, hparse, ?_⟩
  rw [Pattern.previewOrPlain, Pattern.preview, hparse]
  rfl

end CaseData

end LastLayer
