import LastLayer.Pattern

/-!
# Drawing patterns

A pattern is drawn as five lines of five characters: the top face in the middle and the cells of a
side face along the edge they share with it. The row of the back face comes first. A lit cell is a
number sign and any other cell a full stop; the corners are blank.
-/

namespace LastLayer.Pattern

/-- The mark of a cell. -/
def mark (lit : Bool) : Char :=
  if lit then '#' else '.'

/-- The marks of a row of cells. -/
def row (cells : List Bool) : String :=
  String.ofList (cells.map mark)

/-- A row of the top face between the cells of the left and the right face next to it. -/
def middleLine (pattern : Pattern) (index : Fin 3) : String :=
  row (pattern.left[index] :: (pattern.up.toList.drop (3 * index)).take 3 ++ [pattern.right[index]])

/-- The lines of the drawing of a pattern. -/
def lines (pattern : Pattern) : List String :=
  [" " ++ row pattern.back.toList ++ " ", pattern.middleLine 0, pattern.middleLine 1,
    pattern.middleLine 2, " " ++ row pattern.front.toList ++ " "]

/-- The drawing of a pattern. -/
def diagram (pattern : Pattern) : String :=
  "\n".intercalate pattern.lines

/-- The faces of a pattern with their cells, by the letter of the face. -/
def cells (pattern : Pattern) : List (Face × List Bool) :=
  [(.up, pattern.up.toList), (.front, pattern.front.toList), (.right, pattern.right.toList),
    (.back, pattern.back.toList), (.left, pattern.left.toList)]

/-- A pattern as JSON text, one cell on each line. -/
def json (pattern : Pattern) : String :=
  let cell (lit : Bool) : String := "    " ++ if lit then "true" else "false"
  let face (entry : Face × List Bool) : String :=
    "  \"" ++ entry.1.letter.toString ++ "\": [\n" ++
      ",\n".intercalate (entry.2.map cell) ++ "\n  ]"
  "\x7b\n" ++ ",\n".intercalate (pattern.cells.map face) ++ "\n\x7d"

end LastLayer.Pattern
