import LastLayer.Json.Basic
import LastLayer.Json.Tree

/-!
# The values of JSON trees

A tree has a value if its numbers fit in a double, its strings hold no lone surrogate and it is not
nested too deeply.

A number without fraction and exponent that fits in 64 bits, signed or unsigned, is an integer; all
others are doubles, and so is a negative zero. A double is found from the leading digits that fit in
64 bits: they are rounded to a double, and one multiplication or division by a power of ten, rounded
again, brings it to its place. The result can differ from the nearest double in its last bits.
-/

namespace LastLayer.Json

/-! ## Numbers -/

/-- The decimal digits of a number that count, and the power of ten they are multiplied by. -/
structure Significand where
  /-- The leading digits. -/
  digits : Nat
  /-- The power of ten. -/
  exponent : Int

namespace Significand

/-- The greatest number of 64 bits. -/
def limit : Nat := UInt64.size - 1

/-- The value of a decimal digit. -/
def digitValue (c : Char) : Nat := c.toNat - '0'.toNat

/-- Take in the digits before the point. Once a digit does not fit, it and all later ones only raise
the power of ten. -/
def takeWhole (significand : Significand) : List Char → Significand
  | [] => significand
  | c :: cs =>
    let digits := significand.digits * 10 + digitValue c
    if significand.exponent = 0 ∧ digits ≤ limit then
      takeWhole { significand with digits := digits } cs
    else
      takeWhole { significand with exponent := significand.exponent + 1 } cs

/-- Take in the digits behind the point, up to the first one that does not fit. -/
def takeFraction (significand : Significand) : List Char → Significand
  | [] => significand
  | c :: cs =>
    let digits := significand.digits * 10 + digitValue c
    if digits ≤ limit then
      takeFraction ⟨digits, significand.exponent - 1⟩ cs
    else
      significand

/-- A nonnegative double times a power of ten, rounded once if the power is itself a double; nothing
if the result is infinite. -/
def scale? (x : Float) (exponent : Int) : Option Float :=
  if exponent.natAbs ≤ 308 then
    let power := Float.ofScientific 1 false exponent.natAbs
    if 0 ≤ exponent then
      let product := x * power
      if product.isInf then none else some product
    else
      some (x / power)
  else if x == 0 then
    some x
  else if 0 < exponent then
    none
  else
    scale? (x / 1e308) (exponent + 308)
termination_by exponent.natAbs
decreasing_by omega

/-- The double that a significand stands for. -/
def toFloat? (significand : Significand) : Option Float :=
  scale? significand.digits.toUInt64.toFloat significand.exponent

end Significand

/-- The number that a written number stands for. -/
def NumberText.value? (text : NumberText) : Option Number :=
  let whole := Significand.takeWhole ⟨0, 0⟩ text.whole
  let real (significand : Significand) : Option Number :=
    significand.toFloat?.map fun x => .real (if text.negative then -x else x)
  match text.fraction, text.exponent with
  | none, none =>
    if whole.exponent ≠ 0 then real whole
    else if text.negative then
      if 0 < whole.digits ∧ whole.digits ≤ UInt64.size / 2 then some (.integer (-whole.digits))
      else real whole
    else some (.integer whole.digits)
  | fraction, exponent =>
    let mantissa := whole.takeFraction (fraction.getD [])
    real { mantissa with exponent := mantissa.exponent + exponent.getD 0 }

/-! ## Strings -/

/-- The characters of a string; two code units that make a surrogate pair are one character. -/
def Piece.characters? : List Piece → Option (List Char)
  | [] => some []
  | .char c :: pieces => (characters? pieces).map (c :: ·)
  | .unit high :: .unit low :: pieces =>
    if 0xD800 ≤ high ∧ high < 0xDC00 then
      if 0xDC00 ≤ low ∧ low < 0xE000 then
        (characters? pieces).map
          (Char.ofNat (0x10000 + (high - 0xD800) * 0x400 + (low - 0xDC00)) :: ·)
      else
        none
    else if 0xDC00 ≤ high ∧ high < 0xE000 then
      none
    else
      (characters? (.unit low :: pieces)).map (Char.ofNat high :: ·)
  | .unit code :: pieces =>
    if 0xD800 ≤ code ∧ code < 0xE000 then none
    else (characters? pieces).map (Char.ofNat code :: ·)

/-- The text of a string. -/
def Piece.text? (pieces : List Piece) : Option String :=
  (characters? pieces).map String.ofList

/-! ## Values -/

/-- How deep arrays and objects may be nested. -/
def maxDepth : Nat := 127

namespace Tree

mutual

/-- The value of a tree whose arrays and objects are nested at most so deep. -/
def value? (depth : Nat) : Tree → Option Json
  | .null => some .null
  | .bool value => some (.bool value)
  | .number text => text.value?.map .number
  | .string pieces => (Piece.text? pieces).map .string
  | .array items =>
    match depth with
    | 0 => none
    | depth + 1 => (values? depth items).map .array
  | .object members =>
    match depth with
    | 0 => none
    | depth + 1 => (memberValues? depth members).map .object

/-- The values of the items of an array. -/
def values? (depth : Nat) : List Tree → Option (List Json)
  | [] => some []
  | item :: items =>
    (value? depth item).bind fun first => (values? depth items).map (first :: ·)

/-- The keys of the members of an object, with their values. -/
def memberValues? (depth : Nat) : List (List Piece × Tree) → Option (List (String × Json))
  | [] => some []
  | (key, value) :: members =>
    (Piece.text? key).bind fun name =>
      (value? depth value).bind fun first =>
        (memberValues? depth members).map ((name, first) :: ·)

end

/-- The value of a tree as far as it shows without looking into arrays and objects, which are taken
for empty ones. -/
def surface? : Tree → Option Json
  | .array _ => some (.array [])
  | .object _ => some (.object [])
  | tree => value? 0 tree

end Tree

/-- The value of a text. -/
def parse? (text : String) : Option Json :=
  (Tree.parse? text).bind (Tree.value? maxDepth)

end LastLayer.Json
