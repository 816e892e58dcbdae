/-!
# JSON values

A number is an integer, if it is written without fraction and exponent and fits in 64 bits, and a
double otherwise. The members of an object are kept in the order in which they are written; of two
members with one key only the last one counts (`Json.member?`).
-/

namespace LastLayer

/-- A JSON number. -/
inductive Json.Number where
  /-- A whole number. -/
  | integer (value : Int)
  /-- A number with a fraction or an exponent, or too great to be an integer. -/
  | real (value : Float)

/-- A JSON value. -/
inductive Json where
  | null
  | bool (value : Bool)
  | number (value : Json.Number)
  | string (value : String)
  | array (items : List Json)
  | object (members : List (String × Json))

namespace Json

/-- The value of the last member with a given key. -/
def member? (key : String) : List (String × Json) → Option Json
  | [] => none
  | (name, value) :: members =>
    (member? key members).or (if name = key then some value else none)

/-- Whether a value is neither an array nor an object. -/
def isScalar : Json → Bool
  | .array _ | .object _ => false
  | _ => true

/-- A whole number as a value. -/
def ofInt (value : Int) : Json := .number (.integer value)

/-- A value or null. -/
def ofOption {α : Type} (encode : α → Json) : Option α → Json
  | none => .null
  | some value => encode value

@[simp]
theorem member?_nil (key : String) : member? key [] = none := rfl

theorem member?_cons (key name : String) (value : Json) (members : List (String × Json)) :
    member? key ((name, value) :: members) =
      (member? key members).or (if name = key then some value else none) := rfl

/-- The members written last are looked at first. -/
theorem member?_append (key : String) (first second : List (String × Json)) :
    member? key (first ++ second) = (member? key second).or (member? key first) := by
  induction first with
  | nil => simp
  | cons entry first ih =>
    obtain ⟨name, value⟩ := entry
    rw [List.cons_append, member?_cons, member?_cons, ih, Option.or_assoc]

end Json

end LastLayer
