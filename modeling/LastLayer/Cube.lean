import LastLayer.Cubie

/-!
# Cubes

A cube is a list of 27 cubies. A move changes cubies in place: every cubie keeps its slot in the
list while its position and its facelets change, so each slot goes its own way
(`Cube.cubies_applyAll`).

Two cubes agree if every cubie of the first is the cubie that the second has at that position; the
order of the slots does not matter.
-/

namespace LastLayer

/-- A cube. -/
@[ext]
structure Cube where
  /-- The cubies, each in its slot. -/
  cubies : List Cubie
  /-- There are 27 slots. -/
  length_cubies : cubies.length = 27

namespace Cube

/-- The solved cube; its slots follow the order of the grid. -/
def solved : Cube where
  cubies := Position.grid.map Cubie.solved
  length_cubies := by rw [List.length_map, Position.length_grid]

/-- A cube after a move. -/
def apply (cube : Cube) (move : Move) : Cube where
  cubies := cube.cubies.map (Cubie.apply move)
  length_cubies := by rw [List.length_map, cube.length_cubies]

/-- A cube after all moves of an algorithm. -/
def applyAll (cube : Cube) (algorithm : Algorithm) : Cube :=
  algorithm.foldl apply cube

/-- The first cubie at a position. -/
def cubieAt? (cube : Cube) (position : Position) : Option Cubie :=
  cube.cubies.find? (·.position = position)

/-- Whether every cubie of a cube is the one that another cube has at its position. -/
def agreesWith (cube other : Cube) : Bool :=
  cube.cubies.all fun cubie => other.cubieAt? cubie.position = some cubie

/-- Whether a cube agrees with the solved one. -/
def isSolved (cube : Cube) : Bool :=
  cube.agreesWith solved

/-- The number of cubies of the top layer that show a color on top. -/
def topStickerCount (cube : Cube) : Nat :=
  cube.cubies.countP fun cubie => cubie.position.y = 1 && (cubie.facelet .up).isSome

/-- Whether nine stickers show on every face. -/
def faceCountsValid (cube : Cube) : Bool :=
  Face.all.all fun face => cube.cubies.countP (fun cubie => (cubie.facelet face).isSome) = 9

/-- Whether every color shows on nine stickers. -/
def colorCountsValid (cube : Cube) : Bool :=
  let colors := cube.cubies.flatMap (·.facelets.colors)
  Color.all.all fun color => colors.count color = 9

/-- Whether no cubie shows a color twice. -/
def cubiesValid (cube : Cube) : Bool :=
  cube.cubies.all Cubie.hasUniqueColors

/-- A cube as one line for each cubie, in the order of the slots. -/
def text (cube : Cube) : String :=
  String.join (cube.cubies.map fun cubie => cubie.text ++ "\n")

@[simp]
theorem applyAll_nil (cube : Cube) : cube.applyAll [] = cube := rfl

@[simp]
theorem applyAll_cons (cube : Cube) (move : Move) (algorithm : Algorithm) :
    cube.applyAll (move :: algorithm) = (cube.apply move).applyAll algorithm := rfl

@[simp]
theorem applyAll_append (cube : Cube) (first second : Algorithm) :
    cube.applyAll (first ++ second) = (cube.applyAll first).applyAll second := by
  simp [applyAll, List.foldl_append]

/-- Each slot holds what the moves make of the cubie that was in it. -/
theorem cubies_applyAll (cube : Cube) (algorithm : Algorithm) :
    (cube.applyAll algorithm).cubies =
      cube.cubies.map fun cubie => algorithm.foldl (fun c move => c.apply move) cubie := by
  induction algorithm generalizing cube with
  | nil => simp
  | cons move algorithm ih => simp [ih, apply, Function.comp_def]

end Cube

end LastLayer
