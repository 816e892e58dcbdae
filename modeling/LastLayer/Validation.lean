import LastLayer.CaseData
import LastLayer.Cube
import LastLayer.Notation

/-!
# Validating cases

Every case of a collection is run on a cube: its moves are undone on a solved cube, and the cube that
results is inspected. All problems are reported, not only the first one. Rotations `x` and `z` of
the whole cube only reorient it for the setup; they are left out, and a warning says so.

Problems and warnings are given by their cause; `Problem.message` and `Warning.message` word them.
-/

namespace LastLayer

/-- What was found about the moves of a case. -/
structure CaseReport where
  /-- The number of stickers on the top face. -/
  topStickers : Nat
  /-- Whether nine stickers show on every face. -/
  validFaces : Bool
  /-- Whether every color shows on nine stickers. -/
  validColors : Bool
  /-- Whether no cubie shows a color twice. -/
  validCubies : Bool
  /-- Whether the case has rotations that were left out. -/
  usesCubeRotation : Bool

/-- Whether a move is a rotation that is left out. -/
def Move.isStripped (move : Move) : Bool :=
  move.letter = .x || move.letter = .z

/-- An algorithm without the rotations that are left out. -/
def Algorithm.stripped (algorithm : Algorithm) : Algorithm :=
  algorithm.filter fun move => !move.isStripped

/-- What is found about an algorithm. -/
def CaseReport.ofAlgorithm (algorithm : Algorithm) : CaseReport :=
  let cube := Cube.solved.applyAll algorithm.stripped.inverse
  { topStickers := cube.topStickerCount
    validFaces := cube.faceCountsValid
    validColors := cube.colorCountsValid
    validCubies := cube.cubiesValid
    usesCubeRotation := algorithm.any Move.isStripped }

/-- What is found about the moves of a case, if they can be read. -/
def Case.report (entry : Case) : Except Notation.Error CaseReport :=
  (Algorithm.parse entry.validationAlgorithm).map CaseReport.ofAlgorithm

/-- What makes a collection invalid. -/
inductive Problem where
  /-- There is no group. -/
  | noGroups (source : String)
  /-- An entry of a group is no case. -/
  | malformedCase (group : String) (entry : MalformedCase)
  /-- A case has no number. -/
  | missingNumber (group : String)
  /-- A case has the number of an earlier case. -/
  | duplicateNumber (number : CaseNumber)
  /-- The moves of a case cannot be read. -/
  | unreadable (title : String) (error : Notation.Error)
  /-- A case does not leave nine stickers on the top face. -/
  | topStickers (title : String)
  /-- A case does not leave nine stickers on every face. -/
  | faceCounts (title : String)
  /-- A case does not leave nine stickers of every color. -/
  | colorCounts (title : String)
  /-- A case leaves a cubie with a color twice. -/
  | repeatedColor (title : String)

/-- The wording of a problem. -/
def Problem.message : Problem → String
  | .noGroups source => "No OLL groups found in " ++ source ++ "."
  | .malformedCase group entry =>
    "Case " ++ toString entry.position ++ " in group \"" ++ group ++ "\" is malformed: " ++
      entry.error.message
  | .missingNumber group => "Case in group \"" ++ group ++ "\" has no number."
  | .duplicateNumber number => "Duplicate OLL number detected: " ++ number.display
  | .unreadable title error => title ++ " has an unreadable algorithm: " ++ error.message
  | .topStickers title => title ++ " does not keep 9 stickers on the U face."
  | .faceCounts title => title ++ " breaks face sticker counts."
  | .colorCounts title => title ++ " breaks color counts."
  | .repeatedColor title => title ++ " produces duplicate stickers on a cubie."

/-- What is doubtful about a collection but does not make it invalid. -/
inductive Warning where
  /-- A case names another category than the group it is in. -/
  | categoryMismatch (title category group : String)
  /-- A case has rotations that are left out. -/
  | strippedRotation (title : String)

/-- The wording of a warning. -/
def Warning.message : Warning → String
  | .categoryMismatch title category group =>
    title ++ " category mismatch: \"" ++ category ++ "\" vs group \"" ++ group ++ "\""
  | .strippedRotation title => title ++ " uses x/z rotations that are stripped for previews."

/-- A case with its group and what was found about its moves. -/
structure ExaminedCase where
  /-- The name of the group. -/
  group : String
  /-- The case. -/
  entry : Case
  /-- What was found. -/
  report : Except Notation.Error CaseReport

namespace ExaminedCase

/-- Examine a case of a group. -/
def examine (group : CaseGroup) (entry : Case) : ExaminedCase :=
  ⟨group.name, entry, entry.report⟩

/-- The problems with the number of a case that follows cases with given numbers. -/
def numberProblems (earlier : List CaseNumber) (examined : ExaminedCase) : List Problem :=
  match examined.entry.number with
  | none => [.missingNumber examined.group]
  | some number => if number ∈ earlier then [.duplicateNumber number] else []

/-- The problems with the moves of a case. -/
def moveProblems (examined : ExaminedCase) : List Problem :=
  let title := examined.entry.title
  match examined.report with
  | .error error => [.unreadable title error]
  | .ok report =>
    (if report.topStickers = 9 then [] else [.topStickers title]) ++
      (if report.validFaces then [] else [.faceCounts title]) ++
      (if report.validColors then [] else [.colorCounts title]) ++
      (if report.validCubies then [] else [.repeatedColor title])

/-- The warnings about a case. -/
def warnings (examined : ExaminedCase) : List Warning :=
  let title := examined.entry.title
  let mismatch := match examined.entry.category with
    | none => []
    | some category =>
      if category = examined.group then []
      else [.categoryMismatch title category examined.group]
  let rotation := match examined.report with
    | .error _ => []
    | .ok report => if report.usesCubeRotation then [.strippedRotation title] else []
  mismatch ++ rotation

/-- The problems of cases that follow cases with given numbers, case by case. -/
def problems (earlier : List CaseNumber) : List ExaminedCase → List Problem
  | [] => []
  | examined :: rest =>
    examined.numberProblems earlier ++ examined.moveProblems ++
      problems (examined.entry.number.toList ++ earlier) rest

end ExaminedCase

/-- The outcome of validating a collection. -/
structure ValidationReport where
  /-- The problems, in order. -/
  problems : List Problem
  /-- The warnings, in order. -/
  warnings : List Warning
  /-- How many different numbers the cases have. -/
  validated : Nat

/-- Whether a collection is valid: there is no problem. -/
def ValidationReport.isOk (report : ValidationReport) : Bool :=
  report.problems.isEmpty

namespace CaseData

/-- Every case of a collection, examined. -/
def examined (data : CaseData) : List ExaminedCase :=
  data.cases.map fun (group, entry) => .examine group entry

/-- The problems of a collection as such: that it has no group, and the entries that are no
cases. -/
def shapeProblems (data : CaseData) (source : String) : List Problem :=
  (if data.groups.isEmpty then [.noGroups source] else []) ++
    data.groups.flatMap fun group => group.malformed.map (.malformedCase group.name)

/-- Validate a collection that was read from a given source. -/
def validate (data : CaseData) (source : String) : ValidationReport :=
  let examined := data.examined
  { problems := data.shapeProblems source ++ ExaminedCase.problems [] examined
    warnings := examined.flatMap ExaminedCase.warnings
    validated := (examined.filterMap (·.entry.number)).eraseDups.length }

end CaseData

end LastLayer
