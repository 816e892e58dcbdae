import LastLayer.Text.Blank

/-!
# Cases

A case is an entry of a collection of last-layer cases: a number or a name for one, a setup, a
standard algorithm and some labels, all of them optional texts.

The texts that a case shows or simulates are joined from its fields. A field is trimmed first, and a
blank field counts as a missing one.
-/

namespace LastLayer

/-- What a case is numbered by. A number and a text are different even if they look alike. -/
inductive CaseNumber where
  /-- A whole number. -/
  | number (value : Nat)
  /-- Any other scalar, as its text. -/
  | text (value : String)
deriving DecidableEq

/-- A case number as it is shown. -/
def CaseNumber.display : CaseNumber → String
  | .number value => toString value
  | .text value => value

/-- An entry of a collection of last-layer cases. -/
@[ext]
structure Case where
  /-- What the case is numbered by. -/
  number : Option CaseNumber
  /-- The moves that bring a solved cube into the case. -/
  setup : Option String
  /-- The rotations of the whole cube made before the setup. -/
  rotations : Option String
  /-- The standard algorithm, which solves the case. -/
  algorithm : Option String
  /-- The turns of the top face made after the algorithm. -/
  auf : Option String
  /-- A short name. -/
  code : Option String
  /-- How probable the case is. -/
  probability : Option String
  /-- The name of the group to which the case belongs. -/
  category : Option String
deriving DecidableEq

namespace Case

/-- A field without the blanks at its ends, unless it is missing or blank. -/
def nonblank? (field : Option String) : Option String :=
  field.bind Text.nonblank?

/-- The fields that are neither missing nor blank, trimmed, with one space between them. -/
def joinFields (fields : List (Option String)) : String :=
  " ".intercalate (fields.filterMap nonblank?)

/-- What a preview simulates: the standard algorithm, or the setup if there is none, and then the
turns of the top face. -/
def previewAlgorithm (entry : Case) : String :=
  joinFields [(nonblank? entry.algorithm).or (nonblank? entry.setup), entry.auf]

/-- All moves of a case, from the first rotation to the last turn of the top face. -/
def validationAlgorithm (entry : Case) : String :=
  joinFields [entry.rotations, entry.setup, entry.algorithm, entry.auf]

/-- The moves that bring a solved cube into the case, with the rotations before them. -/
def setupSequence (entry : Case) : String :=
  joinFields [entry.rotations, entry.setup]

/-- The moves that solve the case. -/
def solutionSequence (entry : Case) : String :=
  joinFields [entry.algorithm, entry.auf]

/-- The title of a case. -/
def title (entry : Case) : String :=
  match entry.number with
  | some number => "OLL " ++ number.display
  | none => "OLL ?"

/-- The short name of a case, or its title if it has none. -/
def notationLabel (entry : Case) : String :=
  (nonblank? entry.code).getD entry.title

/-- How probable a case is; one in 54 unless something else is said. -/
def probabilityLabel (entry : Case) : String :=
  (nonblank? entry.probability).getD "1/54"

end Case

end LastLayer
