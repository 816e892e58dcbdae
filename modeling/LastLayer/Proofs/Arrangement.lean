import LastLayer.Proofs.Rotation
import Mathlib.GroupTheory.Perm.Sign

/-!
# How the cubies are arranged

The positions of the cubies of a reachable cube are a permutation of the grid, and it is an even
one. For turning layers by a quarter moves eight positions of every layer in a ring by two places,
which is the same as moving them twice by one place: a quarter turn is the square of an eighth of a
turn (`LayerTurn.exists_root`), and squares are even. So no two cubies can be exchanged if
everything else is to stay in place.

The centres of a reachable cube are arranged as in a rotated solved cube.
-/

namespace LastLayer

open Turnable (applyAll)

/-! ## Permutations of the grid -/

/-- A position of the grid. -/
@[ext]
structure Place where
  /-- The position. -/
  position : Position
  /-- It is one of the 27 positions. -/
  mem_grid : position ∈ Position.grid
deriving DecidableEq

namespace Place

/-- All places, in the order of the grid. -/
def all : List Place :=
  Position.grid.attach.map fun position => ⟨position.1, position.2⟩

theorem mem_all (place : Place) : place ∈ all :=
  List.mem_map.2 ⟨⟨place.position, place.mem_grid⟩, List.mem_attach _ _, rfl⟩

instance : Fintype Place :=
  .ofList all mem_all

end Place

namespace LayerTurn

variable (layerTurn : LayerTurn)

theorem quarter_mem_grid {position : Position} (h : position ∈ Position.grid) :
    Turnable.quarter layerTurn position ∈ Position.grid := by
  rw [Turnable.quarter]
  split
  · exact Position.rotate_mem_grid h _ _
  · exact h

/-- What a quarter turn of layers does to the grid. -/
def gridPerm : Equiv.Perm Place where
  toFun place :=
    ⟨Turnable.quarter layerTurn place.position, layerTurn.quarter_mem_grid place.mem_grid⟩
  invFun place :=
    ⟨Turnable.quarter layerTurn.reverse place.position,
      layerTurn.reverse.quarter_mem_grid place.mem_grid⟩
  left_inv place := Place.ext (Turnable.quarter_reverse_quarter layerTurn place.position)
  right_inv place := by
    have hundo := Turnable.quarter_reverse_quarter layerTurn.reverse place.position
    rw [reverse_reverse] at hundo
    exact Place.ext hundo

theorem gridPerm_reverse : layerTurn.reverse.gridPerm = layerTurn.gridPerm⁻¹ :=
  Equiv.ext fun _ => rfl

theorem position_gridPerm_pow (n : Nat) (place : Place) :
    ((layerTurn.gridPerm ^ n) place).position =
      Nat.repeat (Turnable.quarter layerTurn) n place.position := by
  induction n with
  | zero => rfl
  | succ n ih =>
    rw [pow_succ', Equiv.Perm.mul_apply, Nat.repeat, ← ih]
    rfl

end LayerTurn

namespace Algorithm

/-- What an algorithm does to the grid. -/
def gridPerm (algorithm : Algorithm) : Equiv.Perm Place where
  toFun place := ⟨applyAll algorithm place.position, Position.applyAll_mem_grid _ place.mem_grid⟩
  invFun place :=
    ⟨applyAll algorithm.inverse place.position, Position.applyAll_mem_grid _ place.mem_grid⟩
  left_inv place := Place.ext (Turnable.applyAll_inverse algorithm place.position)
  right_inv place := Place.ext (Turnable.applyAll_applyAll_inverse algorithm place.position)

theorem gridPerm_nil : gridPerm [] = 1 :=
  Equiv.ext fun _ => rfl

theorem gridPerm_cons (move : Move) (algorithm : Algorithm) :
    gridPerm (move :: algorithm) = gridPerm algorithm * move.turn.gridPerm ^ move.quarterTurns := by
  refine Equiv.ext fun place => Place.ext ?_
  rw [Equiv.Perm.mul_apply]
  change applyAll (move :: algorithm) place.position =
    applyAll algorithm ((move.turn.gridPerm ^ move.quarterTurns) place).position
  rw [LayerTurn.position_gridPerm_pow, Turnable.applyAll_cons, Turnable.apply]

end Algorithm

/-! ## Parity -/

namespace Position

/-- Turn a position of the grid counterclockwise about an axis by an eighth of a full turn, which is
one place further in the ring around the axis. -/
def eighth (axis : Axis) (position : Position) : Position :=
  match axis with
  | .x => ⟨position.x, (position.y - position.z).sign, (position.y + position.z).sign⟩
  | .y => ⟨(position.z + position.x).sign, position.y, (position.z - position.x).sign⟩
  | .z => ⟨(position.x - position.y).sign, (position.x + position.y).sign, position.z⟩

theorem component_eighth (axis : Axis) (position : Position) :
    (position.eighth axis).component axis = position.component axis := by
  cases axis <;> rfl

theorem eighth_mem_grid {position : Position} (h : position ∈ grid) (axis : Axis) :
    position.eighth axis ∈ grid := by
  revert position
  cases axis <;> decide

/-- Two eighths of a turn make a quarter. -/
theorem eighth_eighth {position : Position} (h : position ∈ grid) (axis : Axis) :
    (position.eighth axis).eighth axis = position.rotate axis .counterclockwise := by
  revert position
  cases axis <;> decide

end Position

namespace LayerTurn

variable (layerTurn : LayerTurn)

/-- Turn layers by an eighth of a full turn. -/
def eighth (place : Place) : Place :=
  if layerTurn.selects place.position then
    ⟨place.position.eighth layerTurn.axis, Position.eighth_mem_grid place.mem_grid layerTurn.axis⟩
  else place

theorem eighth_eighth (h : layerTurn.sense = .counterclockwise) (place : Place) :
    layerTurn.eighth (layerTurn.eighth place) = layerTurn.gridPerm place := by
  apply Place.ext
  change _ = Turnable.quarter layerTurn place.position
  by_cases hselects : layerTurn.selects place.position = true
  · -- the place stays in its layer
    have hafter : layerTurn.selects (place.position.eighth layerTurn.axis) = true := by
      rw [selects, Position.component_eighth]
      exact hselects
    rw [eighth, eighth, if_pos hselects, if_pos hafter, Turnable.quarter_of_selects hselects, h]
    exact Position.eighth_eighth place.mem_grid layerTurn.axis
  · rw [eighth, eighth, if_neg hselects, if_neg hselects, Turnable.quarter_of_not_selects hselects]

/-- A counterclockwise quarter turn of layers is the square of a permutation. -/
theorem exists_root (h : layerTurn.sense = .counterclockwise) :
    ∃ root : Equiv.Perm Place, layerTurn.gridPerm = root * root := by
  have hinjective : Function.Injective layerTurn.eighth := by
    intro place other heq
    apply layerTurn.gridPerm.injective
    rw [← layerTurn.eighth_eighth h, heq, layerTurn.eighth_eighth h]
  refine ⟨.ofBijective layerTurn.eighth (Finite.injective_iff_bijective.1 hinjective), ?_⟩
  exact Equiv.ext fun place => (layerTurn.eighth_eighth h place).symm

/-- Every quarter turn of layers is even. -/
theorem sign_gridPerm : Equiv.Perm.sign layerTurn.gridPerm = 1 := by
  have hsquare : ∀ turn : LayerTurn, turn.sense = .counterclockwise →
      Equiv.Perm.sign turn.gridPerm = 1 := by
    intro turn h
    obtain ⟨root, hroot⟩ := turn.exists_root h
    rw [hroot, Equiv.Perm.sign_mul, Int.units_mul_self]
  cases hsense : layerTurn.sense with
  | counterclockwise => exact hsquare layerTurn hsense
  | clockwise =>
    -- the reverse turn goes counterclockwise
    have hreverse : layerTurn.reverse.sense = .counterclockwise := by
      rw [reverse, hsense]
      rfl
    rw [← Equiv.Perm.sign_inv, ← gridPerm_reverse, hsquare _ hreverse]

end LayerTurn

/-- Every algorithm is even. -/
theorem Algorithm.sign_gridPerm (algorithm : Algorithm) :
    Equiv.Perm.sign algorithm.gridPerm = 1 := by
  induction algorithm with
  | nil => rw [gridPerm_nil, Equiv.Perm.sign_one]
  | cons move algorithm ih =>
    rw [gridPerm_cons, Equiv.Perm.sign_mul, ih, map_pow, LayerTurn.sign_gridPerm, one_pow, one_mul]

/-! ## Cubes -/

namespace Cube

/-- The place of a slot's cubie on the solved cube. -/
def home (index : Fin 27) : Place :=
  ⟨(solved.slot index).position, Reachable.solved.position_mem_grid (solved.slot_mem_cubies index)⟩

theorem position_home (index : Fin 27) :
    (home index).position = Position.grid.get (index.cast Position.length_grid.symm) :=
  congrArg Cubie.position (slot_solved index)

theorem home_injective : Function.Injective home := by
  intro index other h
  have hposition := congrArg Place.position h
  rw [position_home, position_home] at hposition
  have hindex := Position.nodup_grid.injective_get hposition
  exact Fin.ext (congrArg Fin.val hindex)

theorem exists_home_eq (place : Place) : ∃ index, home index = place := by
  obtain ⟨index, hindex⟩ := List.get_of_mem place.mem_grid
  refine ⟨index.cast Position.length_grid, Place.ext ?_⟩
  rw [position_home]
  exact hindex

/-- A permutation of the grid sends the solved place of every slot to the place where the cubie of
the slot is. -/
def ArrangedBy (cube : Cube) (arrangement : Equiv.Perm Place) : Prop :=
  ∀ index, (arrangement (home index)).position = (cube.slot index).position

theorem arrangedBy_applyAll (algorithm : Algorithm) :
    (solved.applyAll algorithm).ArrangedBy algorithm.gridPerm := by
  intro index
  rw [slot_applyAll, Cubie.position_applyAll]
  rfl

theorem ArrangedBy.unique {cube : Cube} {arrangement other : Equiv.Perm Place}
    (h : cube.ArrangedBy arrangement) (hother : cube.ArrangedBy other) : other = arrangement := by
  refine Equiv.ext fun place => Place.ext ?_
  obtain ⟨index, rfl⟩ := exists_home_eq place
  rw [hother, h]

/-- A cube differs from another one by an exchange: two cubies are where the other cube has the
other one of them, and all the rest are where they are in the other cube. -/
structure IsExchange (cube other : Cube) (first second : Fin 27) : Prop where
  ne : first ≠ second
  first_eq : (cube.slot first).position = (other.slot second).position
  second_eq : (cube.slot second).position = (other.slot first).position
  rest_eq : ∀ index, index ≠ first → index ≠ second →
    (cube.slot index).position = (other.slot index).position

theorem IsExchange.arrangedBy {cube other : Cube} {first second : Fin 27}
    (h : cube.IsExchange other first second) {arrangement : Equiv.Perm Place}
    (hother : other.ArrangedBy arrangement) :
    cube.ArrangedBy (arrangement * Equiv.swap (home first) (home second)) := by
  intro index
  rw [Equiv.Perm.mul_apply]
  by_cases hfirst : index = first
  · rw [hfirst, Equiv.swap_apply_left, hother, h.first_eq]
  by_cases hsecond : index = second
  · rw [hsecond, Equiv.swap_apply_right, hother, h.second_eq]
  rw [Equiv.swap_apply_of_ne_of_ne (home_injective.ne hfirst) (home_injective.ne hsecond), hother,
    h.rest_eq index hfirst hsecond]

theorem Reachable.exists_arrangement {cube : Cube} (h : cube.Reachable) :
    ∃ arrangement : Equiv.Perm Place,
      cube.ArrangedBy arrangement ∧ Equiv.Perm.sign arrangement = 1 := by
  obtain ⟨algorithm, rfl⟩ := reachable_iff.1 h
  exact ⟨algorithm.gridPerm, arrangedBy_applyAll algorithm, algorithm.sign_gridPerm⟩

/-- An exchange is odd, so it leads from no reachable cube to another one. -/
theorem Reachable.not_isExchange {cube other : Cube} (h : cube.Reachable) (hother : other.Reachable)
    (first second : Fin 27) : ¬ cube.IsExchange other first second := by
  intro hexchange
  obtain ⟨arrangement, harranged, heven⟩ := h.exists_arrangement
  obtain ⟨arrangement', harranged', heven'⟩ := hother.exists_arrangement
  have hodd : Equiv.Perm.sign arrangement = -1 := by
    rw [(hexchange.arrangedBy harranged').unique harranged, Equiv.Perm.sign_mul, heven',
      Equiv.Perm.sign_swap (home_injective.ne hexchange.ne), one_mul]
  rw [heven] at hodd
  exact absurd hodd (by decide)

end Cube

/-! ## Centres -/

/-- The middle of a face lies in the layer of this face only. -/
theorem Face.touches_normal {face other : Face} :
    face.normal.touches other = true ↔ other = face := by
  cases face <;> cases other <;> decide

/-- A cubie in the middle of a face that fits shows its color on that face and nowhere else. -/
theorem Cubie.Fits.toList_facelets {cubie : Cubie} (h : cubie.Fits) {face : Face}
    (hposition : cubie.position = face.normal) {color : Color}
    (hcolor : cubie.facelet face = some color) : cubie.facelets.toList = [(face, color)] := by
  have hfacelets : cubie.facelets =
      .ofFaces fun other => if other = face then some color else none := by
    refine Facelets.ext_get fun other => ?_
    rw [Facelets.get_ofFaces]
    split
    next hface => rw [hface]; exact hcolor
    next hface =>
      have hnone : ¬ (cubie.facelet other).isSome = true := by
        rw [h other, hposition, Face.touches_normal]
        exact hface
      exact Option.not_isSome_iff_eq_none.1 hnone
  rw [hfacelets]
  cases face <;> rfl

/-- An algorithm carries the cubie in the middle of a face to the middle of the image of the face,
and its sticker along with it. -/
theorem Cubie.applyAll_solved_normal (algorithm : Algorithm) (face : Face) :
    let image := (Rotation.identity.afterAll algorithm).face face
    (applyAll algorithm (solved face.normal)).position = image.normal ∧
      (applyAll algorithm (solved face.normal)).facelets.toList = [(image, face.color)] := by
  intro image
  have hspot : applyAll algorithm (Spot.centre face) = Spot.centre image := by
    have hcentre := Rotation.identity.applyAll_centre face algorithm
    rwa [Rotation.face_identity] at hcentre
  have hposition : (applyAll algorithm (solved face.normal)).position = image.normal := by
    rw [position_applyAll]
    have hcarried := Spot.position_applyAll algorithm (Spot.centre face)
    rw [hspot] at hcarried
    exact hcarried.symm
  have hcolor : (applyAll algorithm (solved face.normal)).facelet image = some face.color := by
    have hfacelet := facelet_applyAll algorithm (solved face.normal) face
    change (applyAll algorithm (solved face.normal)).facelet
      (applyAll algorithm (Spot.centre face)).face = _ at hfacelet
    rw [hspot, facelet_solved, if_pos (Face.touches_normal.2 rfl)] at hfacelet
    exact hfacelet
  exact ⟨hposition, ((fits_solved face.normal).applyAll algorithm).toList_facelets hposition hcolor⟩

namespace Cube

/-- A rotation carries the solved place of every centre to the place where the centre is, and its
face to the face on which its only sticker shows. -/
def CentresRotatedBy (cube : Cube) (rotation : Rotation) : Prop :=
  ∀ index face, (home index).position = face.normal →
    (cube.slot index).position = rotation.position (home index).position ∧
      (cube.slot index).position = (rotation.face face).normal ∧
      (cube.slot index).facelets.toList = [(rotation.face face, face.color)]

theorem centresRotatedBy_applyAll (algorithm : Algorithm) :
    (solved.applyAll algorithm).CentresRotatedBy (Rotation.identity.afterAll algorithm) := by
  intro index face hface
  have hsolved : solved.slot index = Cubie.solved face.normal := by
    rw [slot_solved, ← position_home, hface]
  obtain ⟨hposition, hfacelets⟩ := Cubie.applyAll_solved_normal algorithm face
  rw [slot_applyAll, hsolved, hface, Rotation.position_normal]
  exact ⟨hposition, hposition, hfacelets⟩

theorem CentresRotatedBy.unique {cube : Cube} {rotation other : Rotation}
    (h : cube.CentresRotatedBy rotation) (hother : cube.CentresRotatedBy other) :
    other = rotation := by
  refine Rotation.ext_face fun face => Face.normal_injective ?_
  have hgrid : face.normal ∈ Position.grid := by cases face <;> decide
  obtain ⟨index, hindex⟩ := exists_home_eq ⟨face.normal, hgrid⟩
  have hface : (home index).position = face.normal := congrArg Place.position hindex
  rw [← (hother index face hface).2.1, (h index face hface).2.1]

/-- The cubies of a reachable cube have gone from their solved places by one permutation of the
grid, and it is even. So exchanging two cubies of a reachable cube leads to no reachable cube. The
centres have gone by one of the 24 rotations, and their stickers with them. -/
theorem arrangement_even_and_centres_rotated {cube : Cube} (h : cube.Reachable) :
    (∃ arrangement : Equiv.Perm Place,
      (∀ other, cube.ArrangedBy other ↔ other = arrangement) ∧
        Equiv.Perm.sign arrangement = 1) ∧
    (∀ other : Cube, other.Reachable → ∀ first second, ¬ other.IsExchange cube first second) ∧
    Fintype.card Rotation = 24 ∧ ∃! rotation : Rotation, cube.CentresRotatedBy rotation := by
  refine ⟨?_, fun other hother => hother.not_isExchange h, Rotation.card, ?_⟩
  · obtain ⟨arrangement, harranged, heven⟩ := h.exists_arrangement
    refine ⟨arrangement, fun other => ⟨harranged.unique, ?_⟩, heven⟩
    rintro rfl
    exact harranged
  · obtain ⟨algorithm, rfl⟩ := reachable_iff.1 h
    have hcentres := centresRotatedBy_applyAll algorithm
    exact ⟨_, hcentres, fun other hother => hcentres.unique hother⟩

/-- A slice and a wide turn move four centres each, and all six stay together. -/
theorem arrangement_even_and_centres_rotated_of_slices :
    let cube := solved.applyAll [⟨.M, .quarter⟩, ⟨.u, .prime⟩]
    cube.Reachable ∧ (∀ first second, ¬ solved.IsExchange cube first second) ∧
      ∃! rotation : Rotation, cube.CentresRotatedBy rotation := by
  intro cube
  have hreachable : cube.Reachable := Reachable.solved.applyAll _
  obtain ⟨-, hexchange, -, hrotation⟩ := arrangement_even_and_centres_rotated hreachable
  exact ⟨hreachable, hexchange solved .solved, hrotation⟩

end Cube

end LastLayer
