import LastLayer.Cube
import LastLayer.Notation

/-!
# Last-layer patterns

The pattern of a cube tells which stickers around the top layer show the top color: nine on top, and
three on each side. The pattern of an algorithm is that of the cube which the algorithm solves as
far as the top layer goes; it is found by undoing the algorithm on a solved cube.

Only the stickers of the top layer's cubies are looked at. The cells of the top face are numbered
row by row from the back left; the cells of a side face run from left to right for someone who looks
at that face.
-/

namespace LastLayer

/-- Which stickers around the top layer show the top color. -/
@[ext]
structure Pattern where
  /-- The cells of the top face. -/
  up : Vector Bool 9
  /-- The cells of the front face. -/
  front : Vector Bool 3
  /-- The cells of the right face. -/
  right : Vector Bool 3
  /-- The cells of the back face. -/
  back : Vector Bool 3
  /-- The cells of the left face. -/
  left : Vector Bool 3
deriving DecidableEq

namespace Pattern

/-- A plain top face and nothing on the sides: the pattern of a solved cube, which also stands for
an algorithm that cannot be read. -/
def plain : Pattern :=
  { up := .replicate 9 true
    front := .replicate 3 false
    right := .replicate 3 false
    back := .replicate 3 false
    left := .replicate 3 false }

/-- The number of the top cell above a position. -/
def topIndex (position : Position) : Nat :=
  ((position.z + 1) * 3 + (position.x + 1)).toNat

/-- The positions of the top layer's cubies on the front face. -/
def frontRow : Vector Position 3 := #v[⟨-1, 1, 1⟩, ⟨0, 1, 1⟩, ⟨1, 1, 1⟩]

/-- The positions of the top layer's cubies on the right face. -/
def rightRow : Vector Position 3 := #v[⟨1, 1, 1⟩, ⟨1, 1, 0⟩, ⟨1, 1, -1⟩]

/-- The positions of the top layer's cubies on the back face. -/
def backRow : Vector Position 3 := #v[⟨1, 1, -1⟩, ⟨0, 1, -1⟩, ⟨-1, 1, -1⟩]

/-- The positions of the top layer's cubies on the left face. -/
def leftRow : Vector Position 3 := #v[⟨-1, 1, -1⟩, ⟨-1, 1, 0⟩, ⟨-1, 1, 1⟩]

/-- The color of the top face. -/
def topColor : Color := Face.up.color

/-- Mark on the top face whether a cubie of the top layer shows the top color there. -/
def markTop (cells : Vector Bool 9) (cubie : Cubie) : Vector Bool 9 :=
  match cubie.facelet .up with
  | some color =>
    if cubie.position.y = 1 then
      cells.setIfInBounds (topIndex cubie.position) (color = topColor)
    else
      cells
  | none => cells

/-- Whether the cubie at a position shows the top color on a face. -/
def isLit (cube : Cube) (face : Face) (position : Position) : Bool :=
  (cube.cubieAt? position).bind (·.facelet face) = some topColor

/-- The pattern of a cube. -/
def ofCube (cube : Cube) : Pattern :=
  { up := cube.cubies.foldl markTop (.replicate 9 false)
    front := frontRow.map (isLit cube .front)
    right := rightRow.map (isLit cube .right)
    back := backRow.map (isLit cube .back)
    left := leftRow.map (isLit cube .left) }

/-- The pattern that an algorithm solves. -/
def ofAlgorithm (algorithm : Algorithm) : Pattern :=
  ofCube (Cube.solved.applyAll algorithm.inverse)

/-- The pattern that an algorithm in move notation solves. -/
def preview (text : String) : Except Notation.Error Pattern :=
  (Algorithm.parse text).map ofAlgorithm

/-- The pattern that an algorithm in move notation solves, or the plain one if it cannot be read. -/
def previewOrPlain (text : String) : Pattern :=
  (preview text).toOption.getD plain

end Pattern

end LastLayer
