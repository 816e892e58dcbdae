import LastLayer.Text.Visible

/-!
# Quoted texts

A quoted text stands between quotation marks and shows every character: those that are not visible
are written by their code point.
-/

namespace LastLayer.Text

/-- A character as it stands in a quoted text. -/
def showChar (c : Char) : String :=
  if c = '\x00' then "\\0"
  else if c = '\t' then "\\t"
  else if c = '\r' then "\\r"
  else if c = '\n' then "\\n"
  else if c = '\\' then "\\\\"
  else if c = '"' then "\\\""
  else if isVisible c then c.toString
  else "\\u\x7b" ++ String.ofList (Nat.toDigits 16 c.toNat) ++ "\x7d"

/-- A text between quotation marks. -/
def quoted (text : String) : String :=
  "\"" ++ String.join (text.toList.map showChar) ++ "\""

end LastLayer.Text
