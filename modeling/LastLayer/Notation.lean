import LastLayer.Notation.Expansion

/-!
# Reading move notation

A text is read as an algorithm by scanning its tokens and expanding its groups. Canonical notation
is what `Algorithm.text` writes: one space between moves, no groups, and no suffix but `2` and the
apostrophe.
-/

namespace LastLayer

namespace Algorithm

open Notation

/-- Read an algorithm. -/
def parse (text : String) : Except Notation.Error Algorithm :=
  (Expansion.start.run (Token.scan text.toList)).bind Expansion.finish

/-- Write an algorithm anew in canonical notation. -/
def normalize (text : String) : Except Notation.Error String :=
  (parse text).map Algorithm.text

/-- Write the inverse of an algorithm in canonical notation. -/
def invert (text : String) : Except Notation.Error String :=
  (parse text).map fun algorithm => algorithm.inverse.text

end Algorithm

namespace Move

/-- Why a text is not a single move. -/
inductive Error where
  /-- The text is no algorithm at all. -/
  | unreadable (error : Notation.Error)
  /-- The text holds no move. -/
  | noMove
  /-- The text holds more than one move. -/
  | severalMoves (count : Nat)

/-- The wording of an error. -/
def Error.message : Error → String
  | .unreadable error => error.message
  | .noMove => "No face for move"
  | .severalMoves count => "Expected a single move, got " ++ toString count

/-- Read a text that holds exactly one move. -/
def parse (text : String) : Except Move.Error Move :=
  match Algorithm.parse text with
  | .error error => .error (.unreadable error)
  | .ok [move] => .ok move
  | .ok [] => .error .noMove
  | .ok algorithm => .error (.severalMoves algorithm.length)

end Move

end LastLayer
