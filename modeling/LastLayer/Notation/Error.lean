/-!
# What can be wrong with a text in move notation

Each cause is a constructor, and `Notation.Error.message` words it.
-/

namespace LastLayer.Notation

/-- Why a text is not an algorithm. -/
inductive Error where
  /-- A character that starts no move. -/
  | invalidMove (c : Char)
  /-- A group that is still open at the end. -/
  | unclosedGroup
  /-- A closing parenthesis without an open group. -/
  | unexpectedClose
  /-- A repeat count that is out of range, or that makes the sequence too long. -/
  | repeatCount (count : String)
deriving DecidableEq

/-- The wording of an error. -/
def Error.message : Error → String
  | .invalidMove c => "Invalid move: " ++ c.toString
  | .unclosedGroup => "Unclosed group in algorithm."
  | .unexpectedClose => "Unexpected closing parenthesis in algorithm."
  | .repeatCount count => "Invalid repeat count: " ++ count

end LastLayer.Notation
