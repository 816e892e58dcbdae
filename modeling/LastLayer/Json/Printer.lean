import LastLayer.Decimal.Shortest
import LastLayer.Json.Basic

/-!
# Compact JSON text

Values are written without spaces, the members of an object in the order of their keys by code
point. In a string the quotation mark, the backslash and the control characters are escaped and every
other character stands for itself.

Integers are written in full. A double is written with the digits of its shortest decimal: in
positional notation, with at least one digit behind the point, if its leading digit stands between
the fifth place behind the point and the sixteenth before it, and otherwise with an exponent.
-/

namespace LastLayer.Json

namespace Number

/-- The text of a positive finite double. -/
def positiveText (x : Float) : String :=
  let decimal := Decimal.shortest x
  let digits := (toString decimal.digits).toList
  let leading := decimal.exponent + digits.length - 1
  let zeros (count : Int) : List Char := List.replicate count.toNat '0'
  if -5 ≤ leading ∧ leading ≤ 15 then
    if 0 ≤ decimal.exponent then
      String.ofList (digits ++ zeros decimal.exponent ++ ['.', '0'])
    else if 0 ≤ leading then
      let whole := (leading + 1).toNat
      String.ofList (digits.take whole ++ '.' :: digits.drop whole)
    else
      String.ofList (['0', '.'] ++ zeros (-leading - 1) ++ digits)
  else
    let fraction := if digits.length = 1 then [] else '.' :: digits.drop 1
    let sign := if leading < 0 then "" else "+"
    String.ofList (digits.take 1 ++ fraction) ++ "e" ++ sign ++ toString leading

/-- The text of a finite double; a zero keeps its sign. -/
def realText (x : Float) : String :=
  let magnitude := if x == 0 then "0.0" else positiveText x.abs
  if x.toBits < 0x8000000000000000 then magnitude else "-" ++ magnitude

/-- The text of a number. -/
def text : Number → String
  | .integer value => toString value
  | .real value => realText value

end Number

/-! ## Strings -/

/-- A lower-case hexadecimal digit. -/
def hexDigit (value : Nat) : Char :=
  Nat.digitChar (value % 16)

/-- A character as it stands in a JSON string. -/
def escape (c : Char) : String :=
  if c = '"' then "\\\""
  else if c = '\\' then "\\\\"
  else if c = '\x08' then "\\b"
  else if c = '\t' then "\\t"
  else if c = '\n' then "\\n"
  else if c = '\x0c' then "\\f"
  else if c = '\r' then "\\r"
  else if c.toNat < 0x20 then
    "\\u00" ++ (hexDigit (c.toNat / 16)).toString ++ (hexDigit c.toNat).toString
  else c.toString

/-- A text as a JSON string. -/
def quote (text : String) : String :=
  (text.toList.foldl (fun written c => written ++ escape c) "\"").push '"'

/-! ## Values -/

/-- Of neighbouring members with one key only the last. -/
def keepLast {α : Type} : List (String × α) → List (String × α)
  | [] => []
  | [entry] => [entry]
  | first :: second :: entries =>
    if first.1 = second.1 then keepLast (second :: entries)
    else first :: keepLast (second :: entries)

/-- Members in the order of their keys, each key once with the value it had last. -/
def canonical {α : Type} (members : List (String × α)) : List (String × α) :=
  keepLast (members.mergeSort fun first second => first.1 ≤ second.1)

mutual

/-- The compact text of a value. -/
def render : Json → String
  | .null => "null"
  | .bool value => if value then "true" else "false"
  | .number value => value.text
  | .string value => quote value
  | .array items => "[" ++ ",".intercalate (renderItems items) ++ "]"
  | .object members =>
    let fields := (canonical (renderMembers members)).map fun field =>
      quote field.1 ++ ":" ++ field.2
    "\x7b" ++ ",".intercalate fields ++ "\x7d"

/-- The compact texts of the items of an array. -/
def renderItems : List Json → List String
  | [] => []
  | item :: items => render item :: renderItems items

/-- The members of an object with the compact texts of their values. -/
def renderMembers : List (String × Json) → List (String × String)
  | [] => []
  | (key, value) :: members => (key, render value) :: renderMembers members

end

end LastLayer.Json
