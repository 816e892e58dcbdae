/-!
# Axes, turning senses and grid positions

The cube is a 3×3×3 grid centred on the origin: `x` grows to the right, `y` upwards and `z` towards
the viewer. A position is an integer vector, and a direction (such as the outward normal of a face)
is one too.

The main statements say that a quarter turn one way undoes the quarter turn the other way
(`Position.rotate_rotate_reverse`), and that a turn about an axis leaves the component along that
axis alone (`Position.component_rotate`), so that a turn of one layer stays in that layer.
-/

namespace LastLayer

/-- The three axes of the cube. -/
inductive Axis where
  | x
  | y
  | z
deriving DecidableEq

/-- The two senses of a turn, seen by someone who looks down the positive axis at the origin. -/
inductive Sense where
  | counterclockwise
  | clockwise
deriving DecidableEq

namespace Sense

/-- The opposite sense. -/
def reverse : Sense → Sense
  | .counterclockwise => .clockwise
  | .clockwise => .counterclockwise

/-- A positive number stands for a counterclockwise turn and every other number for a clockwise
one. -/
def ofInt (direction : Int) : Sense :=
  if 0 < direction then .counterclockwise else .clockwise

/-- The sign of a sense: one for counterclockwise, minus one for clockwise. -/
def toInt : Sense → Int
  | .counterclockwise => 1
  | .clockwise => -1

@[simp]
theorem reverse_reverse (sense : Sense) : sense.reverse.reverse = sense := by
  cases sense <;> rfl

@[simp]
theorem ofInt_toInt (sense : Sense) : ofInt sense.toInt = sense := by
  cases sense <;> rfl

@[simp]
theorem toInt_reverse (sense : Sense) : sense.reverse.toInt = -sense.toInt := by
  cases sense <;> rfl

end Sense

/-- A place in the grid, or a direction. -/
@[ext]
structure Position where
  /-- How far to the right. -/
  x : Int
  /-- How far up. -/
  y : Int
  /-- How far towards the viewer. -/
  z : Int
deriving DecidableEq

namespace Position

/-- The component of a position along an axis. -/
def component (position : Position) : Axis → Int
  | .x => position.x
  | .y => position.y
  | .z => position.z

/-- The vector with one given component along an axis and zeros elsewhere. -/
def along (amount : Int) : Axis → Position
  | .x => ⟨amount, 0, 0⟩
  | .y => ⟨0, amount, 0⟩
  | .z => ⟨0, 0, amount⟩

/-- Turn a position by a quarter about an axis. -/
def rotate (position : Position) : Axis → Sense → Position
  | .x, .counterclockwise => ⟨position.x, -position.z, position.y⟩
  | .x, .clockwise => ⟨position.x, position.z, -position.y⟩
  | .y, .counterclockwise => ⟨position.z, position.y, -position.x⟩
  | .y, .clockwise => ⟨-position.z, position.y, position.x⟩
  | .z, .counterclockwise => ⟨-position.y, position.x, position.z⟩
  | .z, .clockwise => ⟨position.y, -position.x, position.z⟩

/-- The coordinates of a layer, in increasing order. -/
def layers : List Int := [-1, 0, 1]

/-- The 27 positions of the grid: `x` varies slowest and `z` fastest. -/
def grid : List Position :=
  layers.flatMap fun x => layers.flatMap fun y => layers.map fun z => ⟨x, y, z⟩

/-- A position as three coordinates of width two in parentheses. -/
def text (position : Position) : String :=
  let coordinate (amount : Int) : String :=
    let digits := toString amount
    if digits.length < 2 then " " ++ digits else digits
  "(" ++ coordinate position.x ++ "," ++ coordinate position.y ++ "," ++
    coordinate position.z ++ ")"

/-- A turn about an axis keeps the component along that axis. -/
@[simp]
theorem component_rotate (position : Position) (axis : Axis) (sense : Sense) :
    (position.rotate axis sense).component axis = position.component axis := by
  cases axis <;> cases sense <;> rfl

/-- A quarter turn followed by the opposite quarter turn changes nothing. -/
@[simp]
theorem rotate_rotate_reverse (position : Position) (axis : Axis) (sense : Sense) :
    (position.rotate axis sense).rotate axis sense.reverse = position := by
  cases axis <;> cases sense <;> simp [rotate, Sense.reverse]

/-- A quarter turn that follows the opposite quarter turn undoes it. -/
@[simp]
theorem rotate_reverse_rotate (position : Position) (axis : Axis) (sense : Sense) :
    (position.rotate axis sense.reverse).rotate axis sense = position := by
  simpa using position.rotate_rotate_reverse axis sense.reverse

/-- Two quarter turns one way end where two quarter turns the other way end. -/
theorem half_turn (position : Position) (axis : Axis) (sense : Sense) :
    (position.rotate axis sense).rotate axis sense =
      (position.rotate axis sense.reverse).rotate axis sense.reverse := by
  cases axis <;> cases sense <;> simp [rotate, Sense.reverse]

theorem length_grid : grid.length = 27 := by decide

end Position

end LastLayer
