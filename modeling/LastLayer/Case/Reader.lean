import LastLayer.Case
import LastLayer.DataError

/-!
# Reading cases

A case is read from a JSON object by the keys of its fields, or from a JSON array by their places.
Missing fields count as null and unknown keys count for nothing. Every field may hold any scalar,
which stands for its text.

A case is readable just if all its fields are scalars and, if it is an array, there is a field for
each item. Of several fields that are not scalars the first one is reported: the first by key in an
object, the first by place in an array.
-/

namespace LastLayer

namespace Json

/-- The text that a scalar stands for; null stands for none. -/
def scalarText? : Json → Option String
  | .bool value => some (if value then "true" else "false")
  | .number value => some value.text
  | .string value => some value
  | .null | .array _ | .object _ => none

/-- The case number that a scalar stands for: a number if it is a whole number of at most 64 bits
without sign, and its text otherwise. -/
def caseNumber? : Json → Option CaseNumber
  | .number (.integer value) =>
    if 0 ≤ value ∧ value < UInt64.size then
      some (.number value.toNat)
    else
      some (.text (Number.integer value).text)
  | value => value.scalarText?.map .text

end Json

namespace Case

/-- The fields of a case. -/
inductive Field where
  | number
  | setup
  | rotations
  | algorithm
  | auf
  | code
  | probability
  | category
deriving DecidableEq

namespace Field

/-- The fields in the order of their places in an array. -/
def byPlace : List Field :=
  [.number, .setup, .rotations, .algorithm, .auf, .code, .probability, .category]

/-- The fields in the order of their keys. -/
def byKey : List Field :=
  [.algorithm, .auf, .category, .code, .number, .probability, .rotations, .setup]

/-- The key of a field in an object. -/
def key : Field → String
  | .number => "number"
  | .setup => "setup"
  | .rotations => "rotations"
  | .algorithm => "algorithm"
  | .auf => "auf"
  | .code => "code"
  | .probability => "probability"
  | .category => "category"

/-- The place of a field in an array. -/
def place : Field → Nat
  | .number => 0
  | .setup => 1
  | .rotations => 2
  | .algorithm => 3
  | .auf => 4
  | .code => 5
  | .probability => 6
  | .category => 7

theorem mem_byPlace (field : Field) : field ∈ byPlace := by
  cases field <;> decide

theorem mem_byKey (field : Field) : field ∈ byKey := by
  cases field <;> decide

theorem getElem?_byPlace_place (field : Field) : byPlace[field.place]? = some field := by
  cases field <;> rfl

end Field

/-- The case whose fields hold given scalars. -/
def ofFields (field : Field → Json) : Case where
  number := (field .number).caseNumber?
  setup := (field .setup).scalarText?
  rotations := (field .rotations).scalarText?
  algorithm := (field .algorithm).scalarText?
  auf := (field .auf).scalarText?
  code := (field .code).scalarText?
  probability := (field .probability).scalarText?
  category := (field .category).scalarText?

/-- The case whose fields hold given values, unless one of them is not a scalar. -/
def read (order : List Field) (field : Field → Json) : Except DataError Case :=
  match order.find? fun name => !(field name).isScalar with
  | some name => .error (.textExpected (field name))
  | none => .ok (ofFields field)

/-- A case is read just if every field that is looked at holds a scalar. -/
theorem read_eq_ok_iff {order : List Field} {field : Field → Json} {entry : Case} :
    read order field = .ok entry ↔
      (∀ name ∈ order, (field name).isScalar) ∧ ofFields field = entry := by
  unfold read
  split
  · rename_i name hfound
    have hname := List.find?_some hfound
    have hmem := List.mem_of_find?_eq_some hfound
    simp only [Bool.not_eq_true', reduceCtorEq, false_iff, not_and] at hname ⊢
    intro hall
    simp [hall name hmem] at hname
  · rename_i hfound
    simpa using fun _ name hmem => by simpa using List.find?_eq_none.1 hfound name hmem

/-- What the members of an object hold in a field. -/
def objectField (members : List (String × Json)) (field : Field) : Json :=
  (Json.member? field.key members).getD .null

/-- What the items of an array hold in a field. -/
def arrayField (items : List Json) (field : Field) : Json :=
  items.getD field.place .null

/-- The case that a JSON value stands for. -/
def ofJson : Json → Except DataError Case
  | .object members => read Field.byKey (objectField members)
  | .array items => do
    let entry ← read Field.byPlace (arrayField items)
    if items.length ≤ Field.byPlace.length then
      return entry
    else
      throw (.tooManyItems items.length)
  | value => .error (.unexpected value .entry)

end Case

end LastLayer
