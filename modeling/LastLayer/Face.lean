import LastLayer.Geometry

/-!
# Faces and colors

The six faces of the cube, the axis and the side each of them lies on, and the color each of them
shows when the cube is solved. Turning the cube by a quarter about an axis carries faces to faces
(`Face.turn`); the main statement is that it does so as it carries their normals
(`Face.normal_turn`).
-/

namespace LastLayer

/-- The six sticker colors. -/
inductive Color where
  | yellow
  | white
  | green
  | blue
  | red
  | orange
deriving DecidableEq

namespace Color

/-- All colors, in the order of the faces that show them. -/
def all : List Color := [.yellow, .white, .green, .blue, .red, .orange]

/-- The letter of a color. -/
def letter : Color → Char
  | .yellow => 'Y'
  | .white => 'W'
  | .green => 'G'
  | .blue => 'B'
  | .red => 'R'
  | .orange => 'O'

end Color

/-- The six faces of the cube. -/
inductive Face where
  | up
  | down
  | front
  | back
  | right
  | left
deriving DecidableEq

namespace Face

/-- All faces, in the order in which stickers are listed. -/
def all : List Face := [.up, .down, .front, .back, .right, .left]

/-- The letter of a face. -/
def letter : Face → Char
  | .up => 'U'
  | .down => 'D'
  | .front => 'F'
  | .back => 'B'
  | .right => 'R'
  | .left => 'L'

/-- The face with a given letter. -/
def ofLetter? (letter : Char) : Option Face :=
  all.find? (·.letter = letter)

/-- The color a face shows on a solved cube. -/
def color : Face → Color
  | .up => .yellow
  | .down => .white
  | .front => .green
  | .back => .blue
  | .right => .red
  | .left => .orange

/-- The axis a face is perpendicular to. -/
def axis : Face → Axis
  | .up | .down => .y
  | .front | .back => .z
  | .right | .left => .x

/-- The coordinate of a face's layer on its axis. -/
def side : Face → Int
  | .up | .front | .right => 1
  | .down | .back | .left => -1

/-- The outward unit normal of a face. -/
def normal (face : Face) : Position :=
  Position.along face.side face.axis

/-- The face with a given outward normal. -/
def ofNormal? (normal : Position) : Option Face :=
  all.find? (·.normal = normal)

/-- The face to which a counterclockwise quarter turn about an axis carries a face. -/
def quarter : Axis → Face → Face
  | .x, .up => .front
  | .x, .front => .down
  | .x, .down => .back
  | .x, .back => .up
  | .y, .front => .right
  | .y, .right => .back
  | .y, .back => .left
  | .y, .left => .front
  | .z, .up => .left
  | .z, .left => .down
  | .z, .down => .right
  | .z, .right => .up
  | _, face => face

/-- The face to which a quarter turn carries a face; a clockwise turn is three counterclockwise
ones. -/
def turn (axis : Axis) : Sense → Face → Face
  | .counterclockwise, face => quarter axis face
  | .clockwise, face => quarter axis (quarter axis (quarter axis face))

theorem mem_all (face : Face) : face ∈ all := by
  cases face <;> decide

/-- A turn carries the normal of a face to the normal of the turned face. -/
theorem normal_turn (axis : Axis) (sense : Sense) (face : Face) :
    (face.turn axis sense).normal = face.normal.rotate axis sense := by
  cases axis <;> cases sense <;> cases face <;> rfl

@[simp]
theorem ofNormal?_normal (face : Face) : ofNormal? face.normal = some face := by
  cases face <;> rfl

/-- The turned normal of a face is always the normal of a face. -/
theorem ofNormal?_rotate_normal (axis : Axis) (sense : Sense) (face : Face) :
    ofNormal? (face.normal.rotate axis sense) = some (face.turn axis sense) := by
  rw [← normal_turn, ofNormal?_normal]

@[simp]
theorem turn_turn_reverse (axis : Axis) (sense : Sense) (face : Face) :
    (face.turn axis sense).turn axis sense.reverse = face := by
  cases axis <;> cases sense <;> cases face <;> rfl

@[simp]
theorem turn_reverse_turn (axis : Axis) (sense : Sense) (face : Face) :
    (face.turn axis sense.reverse).turn axis sense = face := by
  cases axis <;> cases sense <;> cases face <;> rfl

/-- Two quarter turns one way carry a face where two quarter turns the other way carry it. -/
theorem half_turn (axis : Axis) (sense : Sense) (face : Face) :
    (face.turn axis sense).turn axis sense =
      (face.turn axis sense.reverse).turn axis sense.reverse := by
  cases axis <;> cases sense <;> cases face <;> rfl

/-- A turn carries different faces to different faces. -/
theorem turn_injective (axis : Axis) (sense : Sense) {first second : Face}
    (h : first.turn axis sense = second.turn axis sense) : first = second := by
  rw [← turn_turn_reverse axis sense first, h, turn_turn_reverse]

end Face

end LastLayer
