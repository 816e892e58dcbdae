import LastLayer.Proofs.Rotation
import Mathlib.Data.List.Induction

/-!
# Cubies turn rigidly

Turning a cubie moves it as one body, wherever it is, be it on the grid or not: one rotation of the
whole cube carries its position to the new position and each of its stickers to the face on which
the sticker shows afterwards (`Rotation.Carries`). Quarter turns are made one after the other, and
each of them adds a quarter to the rotation (`Rotation.Carries.turn`), so this rotation is the
composition of the turns (`Rotation.carries_turnAll`).

Coordinates may be stored in eight bits, as long as none of them is the least number, which has no
opposite: turning never leads there (`BytePosition.toPosition_rotateAll`).
-/

namespace LastLayer

/-! ## What a rotation carries -/

namespace Rotation

variable {rotation : Rotation}

/-- A rotation permutes the faces. -/
theorem map_face_all_perm (rotation : Rotation) : (Face.all.map rotation.face).Perm Face.all := by
  revert rotation
  decide

theorem position_identity (position : Position) : identity.position position = position := by
  ext <;> simp [Rotation.position, Position.combination, identity, Face.normal, Position.along,
    Face.side, Face.axis]

/-- A sticker on the face to which a rotation carries its face. -/
def sticker (rotation : Rotation) (sticker : Face × Color) : Face × Color :=
  (rotation.face sticker.1, sticker.2)

/-- A rotation carries one cubie to another one: its position and what shows on each face. -/
structure Carries (rotation : Rotation) (start cubie : Cubie) : Prop where
  position_eq : cubie.position = rotation.position start.position
  facelet_eq : ∀ face, cubie.facelet (rotation.face face) = start.facelet face

theorem carries_identity (start : Cubie) : identity.Carries start start where
  position_eq := (position_identity start.position).symm
  facelet_eq face := by rw [face_identity]

namespace Carries

variable {start cubie other : Cubie}

/-- A quarter turn of the cubie is one more quarter turn of the rotation. -/
theorem turn (h : rotation.Carries start cubie) (axis : Axis) (sense : Sense) :
    (rotation.turned axis sense).Carries start (cubie.turn axis sense) where
  position_eq := by
    rw [position_turned, ← h.position_eq]
    rfl
  facelet_eq face := by
    rw [face_turned, Cubie.facelet_turn, h.facelet_eq]

/-- The stickers are those at the start, carried along, and no others. -/
theorem toList_perm (h : rotation.Carries start cubie) :
    cubie.facelets.toList.Perm (start.facelets.toList.map rotation.sticker) := by
  -- carried along, the stickers are those of the cubie, listed by the faces they come from
  have hstickers : start.facelets.toList.map rotation.sticker =
      (Face.all.map rotation.face).filterMap cubie.facelets.sticker? := by
    rw [Facelets.toList, List.map_filterMap, List.filterMap_map]
    congr 1
    funext face
    have hface : cubie.facelets.get (rotation.face face) = start.facelets.get face :=
      h.facelet_eq face
    rw [Function.comp_apply, Facelets.sticker?, Facelets.sticker?, hface, Option.map_map]
    rfl
  rw [hstickers]
  exact (rotation.map_face_all_perm.filterMap _).symm

theorem colors_perm (h : rotation.Carries start cubie) :
    cubie.facelets.colors.Perm start.facelets.colors := by
  have hcolors := h.toList_perm.map Prod.snd
  rwa [List.map_map] at hcolors

end Carries

end Rotation

/-! ## Turning again and again -/

/-- A cubie after some quarter turns. -/
def Cubie.turnAll (turns : List (Axis × Sense)) (cubie : Cubie) : Cubie :=
  turns.foldl (fun cubie turn => cubie.turn turn.1 turn.2) cubie

/-- The composition of some quarter turns. -/
def Rotation.ofTurns (turns : List (Axis × Sense)) : Rotation :=
  turns.foldl (fun rotation turn => rotation.turned turn.1 turn.2) .identity

/-- The composition of the turns carries a cubie to what the turns make of it. -/
theorem Rotation.carries_turnAll (turns : List (Axis × Sense)) (start : Cubie) :
    (ofTurns turns).Carries start (start.turnAll turns) := by
  induction turns using List.reverseRecOn with
  | nil => exact carries_identity start
  | append_singleton turns turn ih =>
    rw [ofTurns, Cubie.turnAll, List.foldl_concat, List.foldl_concat]
    exact ih.turn turn.1 turn.2

theorem Cubie.Fits.turnAll {start : Cubie} (h : start.Fits) (turns : List (Axis × Sense)) :
    (start.turnAll turns).Fits := by
  induction turns using List.reverseRecOn with
  | nil => exact h
  | append_singleton turns turn ih =>
    rw [Cubie.turnAll, List.foldl_concat]
    exact ih.turn turn.1 turn.2

/-! ## Coordinates of eight bits -/

/-- A position whose coordinates are stored in eight bits. -/
structure BytePosition where
  /-- How far to the right. -/
  x : Int8
  /-- How far up. -/
  y : Int8
  /-- How far towards the viewer. -/
  z : Int8

namespace BytePosition

/-- The position that is stored. -/
def toPosition (stored : BytePosition) : Position :=
  ⟨stored.x.toInt, stored.y.toInt, stored.z.toInt⟩

/-- The component along an axis. -/
def component (stored : BytePosition) : Axis → Int8
  | .x => stored.x
  | .y => stored.y
  | .z => stored.z

/-- Turn a position by a quarter about an axis, computing with integers of eight bits. -/
def rotate (stored : BytePosition) : Axis → Sense → BytePosition
  | .x, .counterclockwise => ⟨stored.x, -stored.z, stored.y⟩
  | .x, .clockwise => ⟨stored.x, stored.z, -stored.y⟩
  | .y, .counterclockwise => ⟨stored.z, stored.y, -stored.x⟩
  | .y, .clockwise => ⟨-stored.z, stored.y, stored.x⟩
  | .z, .counterclockwise => ⟨-stored.y, stored.x, stored.z⟩
  | .z, .clockwise => ⟨stored.y, -stored.x, stored.z⟩

/-- A position after some quarter turns. -/
def rotateAll (turns : List (Axis × Sense)) (stored : BytePosition) : BytePosition :=
  turns.foldl (fun stored turn => stored.rotate turn.1 turn.2) stored

/-- Whether every coordinate has an opposite of eight bits, which the least number has not. -/
def HasOpposites (stored : BytePosition) : Prop :=
  ∀ axis, stored.component axis ≠ .minValue

theorem toInt_bounds {n : Int8} (h : n ≠ .minValue) : -127 ≤ n.toInt ∧ n.toInt ≤ 127 := by
  have hne : n.toInt ≠ Int8.minValue.toInt := mt Int8.toInt_inj.1 h
  have hle := n.le_toInt
  have hlt := n.toInt_lt
  rw [Int8.toInt_minValue] at hne
  omega

theorem toInt_neg {n : Int8} (h : n ≠ .minValue) : (-n).toInt = -n.toInt := by
  have hbounds := toInt_bounds h
  rw [Int8.toInt_neg, Int.bmod_eq_of_le] <;> omega

theorem neg_ne_minValue {n : Int8} (h : n ≠ .minValue) : -n ≠ .minValue := by
  intro hneg
  have hopposite := toInt_neg h
  have hbounds := toInt_bounds h
  rw [hneg, Int8.toInt_minValue] at hopposite
  omega

variable {stored : BytePosition} (h : stored.HasOpposites)

include h

theorem component_toPosition_bounds (axis : Axis) :
    -127 ≤ stored.toPosition.component axis ∧ stored.toPosition.component axis ≤ 127 := by
  cases axis with
  | x => exact toInt_bounds (h .x)
  | y => exact toInt_bounds (h .y)
  | z => exact toInt_bounds (h .z)

theorem HasOpposites.rotate (axis : Axis) (sense : Sense) :
    (stored.rotate axis sense).HasOpposites := by
  have hx : stored.x ≠ .minValue := h .x
  have hy : stored.y ≠ .minValue := h .y
  have hz : stored.z ≠ .minValue := h .z
  have hnegX := neg_ne_minValue hx
  have hnegY := neg_ne_minValue hy
  have hnegZ := neg_ne_minValue hz
  -- every coordinate is an old one or the opposite of an old one
  intro along
  cases axis <;> cases sense <;> cases along <;> assumption

theorem toPosition_rotate (axis : Axis) (sense : Sense) :
    (stored.rotate axis sense).toPosition = stored.toPosition.rotate axis sense := by
  have hx : (-stored.x).toInt = -stored.x.toInt := toInt_neg (h .x)
  have hy : (-stored.y).toInt = -stored.y.toInt := toInt_neg (h .y)
  have hz : (-stored.z).toInt = -stored.z.toInt := toInt_neg (h .z)
  cases axis <;> cases sense <;>
    simp only [BytePosition.rotate, toPosition, Position.rotate, hx, hy, hz]

theorem HasOpposites.rotateAll (turns : List (Axis × Sense)) :
    (stored.rotateAll turns).HasOpposites := by
  induction turns using List.reverseRecOn with
  | nil => exact h
  | append_singleton turns turn ih =>
    rw [BytePosition.rotateAll, List.foldl_concat]
    exact ih.rotate turn.1 turn.2

/-- Computing with eight bits goes where the exact positions go. -/
theorem toPosition_rotateAll (turns : List (Axis × Sense)) {cubie : Cubie}
    (hposition : cubie.position = stored.toPosition) :
    (stored.rotateAll turns).toPosition = (cubie.turnAll turns).position := by
  induction turns using List.reverseRecOn with
  | nil => exact hposition.symm
  | append_singleton turns turn ih =>
    rw [BytePosition.rotateAll, Cubie.turnAll, List.foldl_concat, List.foldl_concat]
    have hstep := toPosition_rotate (h.rotateAll turns) turn.1 turn.2
    rw [ih] at hstep
    exact hstep

end BytePosition

/-! ## The law of motion -/

/-- A cubie of a solved cube, taken from any position whose coordinates have opposites of eight bits
and turned by any quarter turns, moves as one body. One rotation, the composition of the turns,
carries its position to the position where it ends and each of its stickers to the face where it
ends, and there are no other stickers. So no sticker is dropped or merged with another one: a face
shows a color just if the cubie lies in its layer, the colors are those at the start, and none of
them shows twice. Every coordinate still has an opposite, and computing with eight bits is exact. -/
theorem Cubie.turns_as_one_body (start : BytePosition) (h : start.HasOpposites)
    (directions : List (Axis × Int8)) :
    let turns := directions.map fun direction => (direction.1, Sense.ofInt direction.2.toInt)
    let solved := Cubie.solved start.toPosition
    let cubie := solved.turnAll turns
    let rotation := Rotation.ofTurns turns
    (cubie.position = rotation.position start.toPosition ∧
      (∀ face, cubie.facelet (rotation.face face) = solved.facelet face) ∧
      cubie.facelets.toList.Perm (solved.facelets.toList.map rotation.sticker)) ∧
    (∀ face, (cubie.facelet face).isSome = true ↔
      cubie.position.component face.axis = face.normal.component face.axis) ∧
    cubie.facelets.colors.Perm solved.facelets.colors ∧
    cubie.hasUniqueColors = true ∧
    (∀ axis, -127 ≤ cubie.position.component axis ∧ cubie.position.component axis ≤ 127) ∧
    (start.rotateAll turns).toPosition = cubie.position := by
  intro turns solved cubie rotation
  have hcarries : rotation.Carries solved cubie := Rotation.carries_turnAll turns solved
  have hbytes : (start.rotateAll turns).toPosition = cubie.position :=
    BytePosition.toPosition_rotateAll h turns rfl
  refine ⟨⟨hcarries.position_eq, hcarries.facelet_eq, hcarries.toList_perm⟩, ?_,
    hcarries.colors_perm, ?_, ?_, hbytes⟩
  · -- turning keeps stickers where the cubie touches the faces, and there alone
    intro face
    rw [(fits_solved start.toPosition).turnAll turns face, Face.component_normal, if_pos rfl]
    exact decide_eq_true_iff
  · exact decide_eq_true (hcarries.colors_perm.nodup_iff.2 (nodup_colors_solved start.toPosition))
  · -- what is stored in eight bits cannot leave their range
    intro axis
    rw [← hbytes]
    exact BytePosition.component_toPosition_bounds (h.rotateAll turns) axis

/-- A cubie of the right layer far off the grid, turned the three ways that the numbers give, shows
its one color on top. -/
theorem Cubie.turns_as_one_body_off_grid :
    let start : BytePosition := ⟨1, 5, -127⟩
    let turns : List (Axis × Sense) :=
      [(.x, .clockwise), (.z, .counterclockwise), (.y, .clockwise)]
    let cubie := (Cubie.solved start.toPosition).turnAll turns
    start.HasOpposites ∧ cubie.position = ⟨5, 1, 127⟩ ∧
      cubie.facelets.toList.Perm [(.up, .red)] ∧ cubie.hasUniqueColors = true ∧
      (start.rotateAll turns).toPosition = ⟨5, 1, 127⟩ := by
  intro start turns cubie
  have h : start.HasOpposites := by
    intro axis
    cases axis <;> decide
  obtain ⟨⟨hposition, -, hstickers⟩, -, -, hunique, -, hbytes⟩ :=
    turns_as_one_body start h [(.x, 0), (.z, 127), (.y, -128)]
  have hend : cubie.position = ⟨5, 1, 127⟩ := hposition.trans (by decide)
  exact ⟨h, hend, hstickers, hunique, hbytes.trans hend⟩

end LastLayer
