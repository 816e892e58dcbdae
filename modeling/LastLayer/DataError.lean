import LastLayer.Json.Printer
import LastLayer.Text.Quoted

/-!
# What can be wrong with case data

Case data that is well-formed JSON can still have the wrong shape. Each cause is a constructor of
`DataError`, and `DataError.message` words it.
-/

namespace LastLayer

/-- What a JSON value should have been. -/
inductive Expected where
  /-- A whole collection. -/
  | document
  /-- A group of cases. -/
  | group
  /-- A case. -/
  | entry
  /-- A list of groups or of cases. -/
  | sequence

/-- The name of what a JSON value should have been. -/
def Expected.text : Expected → String
  | .document => "struct CaseData"
  | .group => "struct RawGroup"
  | .entry => "struct Case"
  | .sequence => "a sequence"

/-- Why case data has the wrong shape. -/
inductive DataError where
  /-- A value of the wrong type. -/
  | unexpected (found : Json) (expected : Expected)
  /-- An array or an object in place of a text. -/
  | textExpected (found : Json)
  /-- A key that stands twice in a collection or in a group. -/
  | duplicateField (key : String)
  /-- A case given as an array of too many items. -/
  | tooManyItems (count : Nat)

/-- A JSON value by its type, and by what it is if it is a scalar. -/
def Json.describe : Json → String
  | .null => "null"
  | .bool value => "boolean `" ++ (if value then "true" else "false") ++ "`"
  | .number (.integer value) => "integer `" ++ toString value ++ "`"
  | .number (.real value) => "floating point `" ++ (Json.Number.real value).text ++ "`"
  | .string value => "string " ++ Text.quoted value
  | .array _ => "sequence"
  | .object _ => "map"

/-- The wording of an error. -/
def DataError.message : DataError → String
  | .unexpected found expected =>
    "invalid type: " ++ found.describe ++ ", expected " ++ expected.text
  | .textExpected found => "expected text, found " ++ found.render
  | .duplicateField key => "duplicate field `" ++ key ++ "`"
  | .tooManyItems count =>
    "invalid length " ++ toString count ++ ", expected fewer elements in array"

end LastLayer
