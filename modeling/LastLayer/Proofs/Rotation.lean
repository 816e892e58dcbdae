import LastLayer.Proofs.Coaxial
import LastLayer.Proofs.Covariance
import Mathlib.Algebra.Ring.Int.Defs
import Mathlib.Data.Fintype.Card
import Mathlib.Tactic.Ring

/-!
# Rotations of the whole cube

A rotation of the whole cube is given by the faces to which it carries the right, the top and the
front. It may not mirror anything: the normals of the three images have to span the same volume as
the normals of the right, the top and the front do. There are 24 such choices (`Rotation.card`).

A rotation carries faces and positions, and it carries them alike (`Rotation.position_normal`).
Turning the cube by a quarter after a rotation is another rotation (`Rotation.turned`).

The centres of the cube keep together: a quarter turn of layers moves all of them, if the layer
through the middle is among those that turn, and otherwise none of them (`Spot.quarter_centre`). So
every algorithm carries all centres as one rotation does (`Rotation.applyAll_centre`).
-/

namespace LastLayer

open Turnable (applyAll)

namespace Position

/-- The volume that three directions span; it is negative if they are mirrored. -/
def volume (first second third : Position) : Int :=
  first.x * (second.y * third.z - second.z * third.y) +
    first.y * (second.z * third.x - second.x * third.z) +
    first.z * (second.x * third.y - second.y * third.x)

theorem volume_rotate (first second third : Position) (axis : Axis) (sense : Sense) :
    volume (first.rotate axis sense) (second.rotate axis sense) (third.rotate axis sense) =
      volume first second third := by
  cases axis <;> cases sense <;> simp only [volume, rotate] <;> ring

/-- The direction with given components along three directions. -/
def combination (components first second third : Position) : Position where
  x := components.x * first.x + components.y * second.x + components.z * third.x
  y := components.x * first.y + components.y * second.y + components.z * third.y
  z := components.x * first.z + components.y * second.z + components.z * third.z

theorem combination_rotate (components first second third : Position) (axis : Axis)
    (sense : Sense) :
    combination components (first.rotate axis sense) (second.rotate axis sense)
        (third.rotate axis sense) =
      (combination components first second third).rotate axis sense := by
  cases axis <;> cases sense <;> ext <;> simp only [combination, rotate] <;> ring

end Position

/-- A rotation of the whole cube. -/
@[ext]
structure Rotation where
  /-- The face to which the right face is carried. -/
  right : Face
  /-- The face to which the top face is carried. -/
  up : Face
  /-- The face to which the front face is carried. -/
  front : Face
  /-- The images are perpendicular to each other, and not mirrored. -/
  volume_eq : Position.volume right.normal up.normal front.normal = 1
deriving DecidableEq

namespace Rotation

/-- The face to which a face is carried. -/
def face (rotation : Rotation) : Face → Face
  | .right => rotation.right
  | .left => rotation.right.opposite
  | .up => rotation.up
  | .down => rotation.up.opposite
  | .front => rotation.front
  | .back => rotation.front.opposite

/-- The position to which a position is carried. -/
def position (rotation : Rotation) (position : Position) : Position :=
  position.combination rotation.right.normal rotation.up.normal rotation.front.normal

/-- The rotation that leaves everything where it is. -/
def identity : Rotation :=
  ⟨.right, .up, .front, by decide⟩

/-- A rotation and then a quarter turn of the whole cube. -/
def turned (rotation : Rotation) (axis : Axis) (sense : Sense) : Rotation where
  right := rotation.right.turn axis sense
  up := rotation.up.turn axis sense
  front := rotation.front.turn axis sense
  volume_eq := by
    simp only [Face.normal_turn]
    rw [Position.volume_rotate, rotation.volume_eq]

/-- All rotations. -/
def all : List Rotation :=
  Face.all.flatMap fun r => Face.all.flatMap fun u => Face.all.filterMap fun f =>
    if h : Position.volume r.normal u.normal f.normal = 1 then some ⟨r, u, f, h⟩ else none

theorem mem_all (rotation : Rotation) : rotation ∈ all := by
  obtain ⟨r, u, f, h⟩ := rotation
  refine List.mem_flatMap.2 ⟨r, r.mem_all, List.mem_flatMap.2 ⟨u, u.mem_all, ?_⟩⟩
  exact List.mem_filterMap.2 ⟨f, f.mem_all, dif_pos h⟩

instance : Fintype Rotation :=
  .ofList all mem_all

theorem card : Fintype.card Rotation = 24 := by decide

@[simp]
theorem face_identity (face : Face) : identity.face face = face := by
  cases face <;> rfl

theorem face_turned (rotation : Rotation) (axis : Axis) (sense : Sense) (face : Face) :
    (rotation.turned axis sense).face face = (rotation.face face).turn axis sense := by
  cases face <;> simp only [Rotation.face, turned, Face.turn_opposite]

/-- Rotations that carry all faces alike are equal. -/
theorem ext_face {rotation other : Rotation} (h : ∀ face, rotation.face face = other.face face) :
    rotation = other :=
  Rotation.ext (h .right) (h .up) (h .front)

/-- A rotation carries the normal of a face to the normal of the face that it carries it to. -/
theorem position_normal (rotation : Rotation) (face : Face) :
    rotation.position face.normal = (rotation.face face).normal := by
  have hopposite : ∀ face : Face,
      face.opposite.normal = ⟨-face.normal.x, -face.normal.y, -face.normal.z⟩ := by
    intro face
    cases face <;> rfl
  -- a normal has one component, so it picks one of the three images, or its opposite
  have hcombination : ∀ first second third : Position,
      face.normal.combination first second third =
        match face with
        | .right => first
        | .left => ⟨-first.x, -first.y, -first.z⟩
        | .up => second
        | .down => ⟨-second.x, -second.y, -second.z⟩
        | .front => third
        | .back => ⟨-third.x, -third.y, -third.z⟩ := by
    intro first second third
    cases face <;> simp [Position.combination, Face.normal, Position.along, Face.side, Face.axis]
  rw [position, hcombination]
  cases face <;> simp only [Rotation.face, hopposite]

theorem position_turned (rotation : Rotation) (axis : Axis) (sense : Sense) (position : Position) :
    (rotation.turned axis sense).position position =
      (rotation.position position).rotate axis sense := by
  simp only [Rotation.position, turned, Face.normal_turn, Position.combination_rotate]

end Rotation

/-! ## Centres -/

/-- A turn leaves the faces on its axis alone. -/
theorem Face.turn_axis (face : Face) (sense : Sense) : face.turn face.axis sense = face := by
  cases face <;> cases sense <;> rfl

/-- The spot in the middle of a face. -/
def Spot.centre (face : Face) : Spot :=
  ⟨face.normal, face⟩

namespace Spot

theorem turn_centre (face : Face) (axis : Axis) (sense : Sense) :
    (centre face).turn axis sense = centre (face.turn axis sense) := by
  rw [centre, centre, Face.normal_turn, turn]

/-- A quarter turn carries the centres as a turn of the whole cube does if the layer through the
middle is turned, and leaves them where they are if it is not. -/
theorem quarter_centre (layerTurn : LayerTurn) (face : Face) :
    Turnable.quarter layerTurn (centre face) =
      centre (if 0 ∈ layerTurn.layers then face.turn layerTurn.axis layerTurn.sense else face) := by
  obtain ⟨axis, layers, sense⟩ := layerTurn
  by_cases haxis : axis = face.axis
  · -- turned or not, the centre stays where it is
    subst haxis
    have hturn : (centre face).turn face.axis sense = centre face := by
      rw [turn_centre, Face.turn_axis]
    rw [Face.turn_axis, ite_self, Turnable.quarter]
    split
    · exact hturn
    · rfl
  · -- the centre lies in the layer through the middle
    have hselects : (LayerTurn.mk axis layers sense).selects (centre face).position = true ↔
        0 ∈ layers := by
      rw [LayerTurn.selects_iff]
      change face.normal.component axis ∈ layers ↔ 0 ∈ layers
      rw [Face.component_normal, if_neg haxis]
    by_cases hmiddle : 0 ∈ layers
    · rw [Turnable.quarter_of_selects (hselects.2 hmiddle), if_pos hmiddle]
      exact turn_centre face axis sense
    · rw [Turnable.quarter_of_not_selects (mt hselects.1 hmiddle), if_neg hmiddle]

end Spot

namespace Rotation

/-- A rotation and then what a quarter turn of layers does to the centres. -/
def afterQuarter (layerTurn : LayerTurn) (rotation : Rotation) : Rotation :=
  if 0 ∈ layerTurn.layers then rotation.turned layerTurn.axis layerTurn.sense else rotation

/-- A rotation and then what an algorithm does to the centres. -/
def afterAll (algorithm : Algorithm) (rotation : Rotation) : Rotation :=
  algorithm.foldl (fun rotation move => move.quarterTurns.repeat (afterQuarter move.turn) rotation)
    rotation

variable (rotation : Rotation) (face : Face)

theorem quarter_centre_face (layerTurn : LayerTurn) :
    Turnable.quarter layerTurn (Spot.centre (rotation.face face)) =
      Spot.centre ((rotation.afterQuarter layerTurn).face face) := by
  rw [Spot.quarter_centre, afterQuarter]
  split
  · rw [face_turned]
  · rfl

theorem repeat_quarter_centre (layerTurn : LayerTurn) (n : Nat) :
    Nat.repeat (Turnable.quarter layerTurn) n (Spot.centre (rotation.face face)) =
      Spot.centre ((Nat.repeat (afterQuarter layerTurn) n rotation).face face) := by
  induction n with
  | zero => rfl
  | succ n ih => rw [Nat.repeat, ih, quarter_centre_face, Nat.repeat]

/-- An algorithm carries all centres as one rotation does. -/
theorem applyAll_centre (algorithm : Algorithm) :
    applyAll algorithm (Spot.centre (rotation.face face)) =
      Spot.centre ((rotation.afterAll algorithm).face face) := by
  induction algorithm generalizing rotation with
  | nil => rfl
  | cons move algorithm ih =>
    rw [Turnable.applyAll_cons, Turnable.apply, repeat_quarter_centre, ih]
    rfl

end Rotation

end LastLayer
