import LastLayer.Proofs.Structure
import Mathlib.Algebra.BigOperators.Group.List.Basic

/-!
# Quantities that are kept in total

A cubie with a number of stickers stays at positions that are exposed on this number of faces
(`Position.exposed`). A turn moves its stickers to other spots, and a quantity that is read off these
spots changes. The quantity is balanced (`IsBalanced`) if a turn changes it alike for all stickers of a
position, and if these changes cancel over the layers of every letter.

Nothing else is needed for a law of conservation. Take one sticker at each position: no algorithm
changes the sum of a balanced quantity over them (`IsBalanced.sum_applyAll`). So an algorithm that
leaves all stickers but those of one position where they are cannot move these about in place either
(`IsBalanced.applyAll_eq_self_of_others`).
-/

namespace LastLayer

open Turnable (applyAll)

theorem Axis.mem_all (axis : Axis) : axis ∈ [Axis.x, .y, .z] := by
  cases axis <;> decide

theorem Sense.mem_all (sense : Sense) : sense ∈ [Sense.counterclockwise, .clockwise] := by
  cases sense <;> decide

theorem Amount.mem_all (amount : Amount) : amount ∈ [Amount.quarter, .half, .prime] := by
  cases amount <;> decide

/-! ## Positions with a number of stickers -/

namespace Position

/-- The positions of the grid that are exposed on a number of faces. -/
def exposed (number : Nat) : List Position :=
  grid.filter (·.exposure = number)

/-- The first face, in the order of `Face.all`, that a position is exposed on: its upper or lower face
if it has one, else its front or back face. -/
def referenceFace (position : Position) : Face :=
  (Face.all.find? position.touches).getD .up

/-- The spot of a position on its reference face. -/
def reference (position : Position) : Spot :=
  ⟨position, position.referenceFace⟩

theorem exposure_rotate (position : Position) (axis : Axis) (sense : Sense) :
    (position.rotate axis sense).exposure = position.exposure := by
  -- count the faces in the order in which they come from the old ones
  rw [exposure, ← (Facelets.map_turn_all_perm axis sense).countP_eq, List.countP_map, exposure]
  congr 1
  funext face
  exact position.touches_rotate axis sense face

theorem exposure_applyAll (algorithm : Algorithm) (position : Position) :
    (applyAll algorithm position).exposure = position.exposure :=
  Turnable.invariant_applyAll (fun moved : Position => moved.exposure = position.exposure)
    (fun moved axis sense h => (moved.exposure_rotate axis sense).trans h) algorithm rfl

theorem exposure_pos {position : Position} {face : Face} (h : position.touches face = true) :
    0 < position.exposure :=
  List.countP_pos_iff.2 ⟨face, face.mem_all, h⟩

theorem touches_referenceFace {position : Position} (h : 0 < position.exposure) :
    position.touches position.referenceFace = true := by
  obtain ⟨face, hmem, htouches⟩ := List.countP_pos_iff.1 h
  rw [referenceFace]
  cases hfound : Face.all.find? position.touches with
  | none => exact absurd htouches (List.find?_eq_none.1 hfound face hmem)
  | some found => exact List.find?_some hfound

theorem mem_exposed {position : Position} {number : Nat} :
    position ∈ exposed number ↔ position ∈ grid ∧ position.exposure = number := by
  rw [exposed, List.mem_filter, decide_eq_true_iff]

theorem nodup_exposed (number : Nat) : (exposed number).Nodup :=
  nodup_grid.filter _

theorem rotate_mem_exposed {position : Position} {number : Nat} (h : position ∈ exposed number)
    (axis : Axis) (sense : Sense) : position.rotate axis sense ∈ exposed number := by
  obtain ⟨hgrid, hexposure⟩ := mem_exposed.1 h
  exact mem_exposed.2 ⟨rotate_mem_grid hgrid axis sense,
    (position.exposure_rotate axis sense).trans hexposure⟩

/-- A position with stickers belongs to a centre, an edge or a corner. -/
theorem exposed_of_touches {position : Position} (h : position ∈ grid) {face : Face}
    (htouches : position.touches face = true) :
    position ∈ exposed 1 ∨ position ∈ exposed 2 ∨ position ∈ exposed 3 := by
  have hle : ∀ place ∈ grid, place.exposure ≤ 3 := by decide
  have hpositive := exposure_pos htouches
  have hthree := hle position h
  simp only [mem_exposed, h, true_and]
  omega

end Position

/-! ## Stickers -/

namespace Spot

/-- A spot holds a sticker of a cubie that has a number of them if the position is exposed on this
number of faces, and on the face of the spot in particular. -/
structure IsSticker (number : Nat) (spot : Spot) : Prop where
  /-- The position is exposed on the number of faces. -/
  position_mem : spot.position ∈ Position.exposed number
  /-- The face of the spot is one of them. -/
  touches : spot.position.touches spot.face = true

instance (number : Nat) (spot : Spot) : Decidable (spot.IsSticker number) :=
  decidable_of_iff (spot.position ∈ Position.exposed number ∧ spot.position.touches spot.face = true)
    ⟨fun h => ⟨h.1, h.2⟩, fun h => ⟨h.position_mem, h.touches⟩⟩

variable {number : Nat} {spot : Spot}

theorem IsSticker.turn (h : spot.IsSticker number) (axis : Axis) (sense : Sense) :
    (spot.turn axis sense).IsSticker number where
  position_mem := Position.rotate_mem_exposed h.position_mem axis sense
  touches := (spot.position.touches_rotate axis sense spot.face).trans h.touches

theorem IsSticker.applyAll (h : spot.IsSticker number) (algorithm : Algorithm) :
    (Turnable.applyAll algorithm spot).IsSticker number :=
  Turnable.invariant_applyAll (IsSticker number) (fun _ axis sense hmoved => hmoved.turn axis sense)
    algorithm h

theorem isSticker_reference {position : Position} (hnumber : 0 < number)
    (h : position ∈ Position.exposed number) : position.reference.IsSticker number where
  position_mem := h
  touches := Position.touches_referenceFace
    (hnumber.trans_eq (Position.mem_exposed.1 h).2.symm)

end Spot

/-- One sticker at each position that is exposed on a number of faces. -/
structure Covers (number : Nat) (spots : List Spot) : Prop where
  /-- Every such position has one of the stickers. -/
  positions_perm : (spots.map Spot.position).Perm (Position.exposed number)
  /-- The spots hold stickers. -/
  isSticker : ∀ spot ∈ spots, spot.IsSticker number

theorem Covers.applyAll {number : Nat} {spots : List Spot} (h : Covers number spots)
    (algorithm : Algorithm) : Covers number (spots.map (applyAll algorithm)) where
  positions_perm := by
    have hpositions : (spots.map (Turnable.applyAll algorithm)).map Spot.position =
        (spots.map Spot.position).map (Turnable.applyAll algorithm) := by
      rw [List.map_map, List.map_map]
      exact List.map_congr_left fun spot _ => spot.position_applyAll algorithm
    rw [hpositions]
    exact (h.positions_perm.map _).trans (Position.map_applyAll_perm (Position.nodup_exposed number)
      (fun _ => Position.rotate_mem_exposed) algorithm)
  isSticker := by
    intro moved hmoved
    obtain ⟨spot, hspot, rfl⟩ := List.mem_map.1 hmoved
    exact (h.isSticker spot hspot).applyAll algorithm

theorem covers_reference {number : Nat} (h : 0 < number) :
    Covers number ((Position.exposed number).map Position.reference) where
  positions_perm := by
    rw [List.map_map]
    exact .of_eq (List.map_id _)
  isSticker := by
    intro spot hspot
    obtain ⟨position, hposition, rfl⟩ := List.mem_map.1 hspot
    exact Spot.isSticker_reference h hposition

/-! ## Balance -/

/-- By how much a quarter turn of some layers changes a quantity of the stickers at a position. -/
def drift {M : Type} [Zero M] (quantity : Spot → M) (layerTurn : LayerTurn) (position : Position) : M :=
  if layerTurn.selects position then
    quantity (position.reference.turn layerTurn.axis layerTurn.sense)
  else 0

/-- A quantity is balanced for stickers of a number if a turn changes it, at each position, by what it
is for the turned reference spot, and if these changes come to nothing over the layers of every
letter. -/
structure IsBalanced {M : Type} [AddCommGroup M] (number : Nat) (quantity : Spot → M) : Prop where
  /-- What a turn changes depends on the position only. -/
  turn : ∀ spot : Spot, spot.IsSticker number → ∀ axis sense,
    quantity (spot.turn axis sense) =
      quantity spot + quantity (spot.position.reference.turn axis sense)
  /-- The changes of a quarter turn cancel. -/
  cancel : ∀ move : Move, ((Position.exposed number).map (drift quantity move.turn)).sum = 0

/-- Balance is a property of finitely many spots and moves. -/
instance {M : Type} [AddCommGroup M] [DecidableEq M] (number : Nat) (quantity : Spot → M) :
    Decidable (IsBalanced number quantity) :=
  decidable_of_iff
    ((∀ position ∈ Position.exposed number, ∀ face ∈ Face.all, position.touches face = true →
        ∀ axis ∈ [Axis.x, .y, .z], ∀ sense ∈ [Sense.counterclockwise, .clockwise],
          quantity ((Spot.mk position face).turn axis sense) =
            quantity ⟨position, face⟩ + quantity (position.reference.turn axis sense)) ∧
      ∀ letter ∈ Letter.all, ∀ amount ∈ [Amount.quarter, .half, .prime],
        ((Position.exposed number).map (drift quantity (Move.mk letter amount).turn)).sum = 0)
    ⟨fun h => ⟨fun spot hspot axis sense =>
        h.1 spot.position hspot.position_mem spot.face spot.face.mem_all hspot.touches axis
          axis.mem_all sense sense.mem_all,
      fun move => h.2 move.letter move.letter.mem_all move.amount move.amount.mem_all⟩,
    fun h => ⟨fun position hposition face _ htouches axis _ sense _ =>
        h.turn ⟨position, face⟩ ⟨hposition, htouches⟩ axis sense,
      fun letter _ amount _ => h.cancel ⟨letter, amount⟩⟩⟩

/-- A quantity that is zero everywhere is balanced. -/
theorem isBalanced_zero {M : Type} [AddCommGroup M] (number : Nat) :
    IsBalanced number fun _ => (0 : M) where
  turn _ _ _ _ := (add_zero 0).symm
  cancel move := by
    have hdrift : drift (fun _ => (0 : M)) move.turn = fun _ => 0 := funext fun _ => ite_self 0
    rw [hdrift, List.map_const', List.sum_replicate, nsmul_zero]

/-- A quantity tells the stickers of each position apart. -/
def TellsApart {M : Type} (number : Nat) (quantity : Spot → M) : Prop :=
  ∀ position ∈ Position.exposed number, ∀ first ∈ Face.all, ∀ second ∈ Face.all,
    position.touches first = true → position.touches second = true →
      quantity ⟨position, first⟩ = quantity ⟨position, second⟩ → first = second

instance {M : Type} [DecidableEq M] (number : Nat) (quantity : Spot → M) :
    Decidable (TellsApart number quantity) :=
  inferInstanceAs (Decidable (∀ position ∈ Position.exposed number, ∀ first ∈ Face.all,
    ∀ second ∈ Face.all, position.touches first = true → position.touches second = true →
      quantity ⟨position, first⟩ = quantity ⟨position, second⟩ → first = second))

namespace IsBalanced

variable {M : Type} [AddCommGroup M] {number : Nat} {quantity : Spot → M}
  (h : IsBalanced number quantity)

include h

theorem quantity_quarter {spot : Spot} (hspot : spot.IsSticker number) (layerTurn : LayerTurn) :
    quantity (Turnable.quarter layerTurn spot) =
      quantity spot + drift quantity layerTurn spot.position := by
  by_cases hselects : layerTurn.selects spot.position = true
  · rw [Turnable.quarter_of_selects hselects, drift, if_pos hselects]
    exact h.turn spot hspot layerTurn.axis layerTurn.sense
  · rw [Turnable.quarter_of_not_selects hselects, drift, if_neg hselects, add_zero]

/-- Stickers of one position move together: an algorithm keeps the difference of their quantities. -/
theorem quantity_applyAll_sub {first second : Spot} (hfirst : first.IsSticker number)
    (hsecond : second.IsSticker number) (hposition : first.position = second.position)
    (algorithm : Algorithm) :
    quantity (applyAll algorithm first) - quantity (applyAll algorithm second) =
      quantity first - quantity second := by
  refine (Turnable.applyAll_simulation
    (fun moved other : Spot => moved.position = other.position ∧ moved.IsSticker number ∧
      other.IsSticker number ∧ quantity moved - quantity other = quantity first - quantity second)
    (fun _ _ hrelated => hrelated.1) ?_ algorithm ⟨hposition, hfirst, hsecond, rfl⟩).2.2.2
  rintro moved other axis sense ⟨hsame, hmoved, hother, hdifference⟩
  refine ⟨congrArg (Position.rotate · axis sense) hsame, hmoved.turn axis sense,
    hother.turn axis sense, ?_⟩
  -- both change by what belongs to their common position
  change quantity (moved.turn axis sense) - quantity (other.turn axis sense) = _
  rw [h.turn moved hmoved, h.turn other hother, hsame, add_sub_add_right_eq_sub, hdifference]

section Sums

variable {spots : List Spot} (hspots : Covers number spots)

include hspots

theorem sum_quarter (move : Move) :
    (spots.map fun spot => quantity (Turnable.quarter move.turn spot)).sum =
      (spots.map quantity).sum :=
  calc (spots.map fun spot => quantity (Turnable.quarter move.turn spot)).sum
      = (spots.map fun spot => quantity spot + drift quantity move.turn spot.position).sum := by
        congr 1
        exact List.map_congr_left fun spot hspot =>
          h.quantity_quarter (hspots.isSticker spot hspot) move.turn
    _ = (spots.map quantity).sum +
          ((spots.map Spot.position).map (drift quantity move.turn)).sum := by
        rw [List.sum_map_add, List.map_map]
        rfl
    _ = (spots.map quantity).sum := by
        -- the stickers cover every position once, in whatever order
        rw [(hspots.positions_perm.map _).sum_eq, h.cancel, add_zero]

theorem sum_apply (move : Move) :
    (spots.map fun spot => quantity (Turnable.apply move spot)).sum =
      (spots.map quantity).sum := by
  obtain ⟨letter, amount⟩ := move
  cases amount with
  | quarter => exact h.sum_quarter hspots ⟨letter, .quarter⟩
  | prime => exact h.sum_quarter hspots ⟨letter, .prime⟩
  | half =>
    -- in between, after the first of the two quarter turns, every position is covered again
    have hafter : Covers number (spots.map (Turnable.apply ⟨letter, .quarter⟩)) :=
      hspots.applyAll [⟨letter, .quarter⟩]
    have hsecond := h.sum_quarter hafter ⟨letter, .quarter⟩
    rw [List.map_map, List.map_map] at hsecond
    exact hsecond.trans (h.sum_quarter hspots ⟨letter, .quarter⟩)

/-- No algorithm changes the sum of a balanced quantity. -/
theorem sum_applyAll (algorithm : Algorithm) :
    (spots.map fun spot => quantity (applyAll algorithm spot)).sum = (spots.map quantity).sum := by
  induction algorithm generalizing spots with
  | nil => rfl
  | cons move algorithm ih =>
    have hafter : Covers number (spots.map (Turnable.apply move)) := hspots.applyAll [move]
    have hrest := ih hafter
    rw [List.map_map, List.map_map] at hrest
    exact hrest.trans (h.sum_apply hspots move)

end Sums

theorem sum_reference (hnumber : 0 < number) (algorithm : Algorithm) :
    ((Position.exposed number).map fun position =>
        quantity (applyAll algorithm position.reference)).sum =
      ((Position.exposed number).map fun position => quantity position.reference).sum := by
  have hsum := h.sum_applyAll (covers_reference hnumber) algorithm
  rwa [List.map_map, List.map_map] at hsum

section Others

variable {algorithm : Algorithm} {position : Position}
  (hothers : ∀ other ∈ Position.exposed number, other ≠ position →
    applyAll algorithm other.reference = other.reference)

include hothers

/-- If an algorithm leaves the reference spots of all positions but one where they are, it keeps the
quantity of the last one: the sum is kept, and so is all of it but this part. -/
theorem quantity_reference_eq (hnumber : 0 < number) (hmem : position ∈ Position.exposed number) :
    quantity (applyAll algorithm position.reference) = quantity position.reference := by
  have hsum := h.sum_reference hnumber algorithm
  have hrest : ((Position.exposed number).erase position).map
        (fun other => quantity (applyAll algorithm other.reference)) =
      ((Position.exposed number).erase position).map fun other => quantity other.reference := by
    refine List.map_congr_left fun other hother => ?_
    obtain ⟨hne, hother⟩ := (Position.nodup_exposed number).mem_erase_iff.1 hother
    rw [hothers other hother hne]
  rw [← List.sum_map_erase _ hmem, ← List.sum_map_erase _ hmem, hrest] at hsum
  exact add_right_cancel hsum

/-- If an algorithm moves neither a position nor the reference spots of the others, it leaves the
stickers of this position where they are as well, provided that the quantity tells them apart. -/
theorem applyAll_eq_self_of_others (hapart : TellsApart number quantity) {face : Face}
    (hspot : (Spot.mk position face).IsSticker number)
    (hfixed : applyAll algorithm position = position) :
    applyAll algorithm (Spot.mk position face) = Spot.mk position face := by
  obtain ⟨image, himage⟩ : ∃ image, applyAll algorithm (Spot.mk position face) =
      Spot.mk position image :=
    ⟨_, Spot.ext ((Spot.position_applyAll algorithm _).trans hfixed) rfl⟩
  have hmoved : (Spot.mk position image).IsSticker number := himage ▸ hspot.applyAll algorithm
  have hnumber : 0 < number :=
    (Position.exposure_pos hspot.touches).trans_eq (Position.mem_exposed.1 hspot.position_mem).2
  -- the sticker moves together with the one on the reference face
  have hquantity : quantity (Spot.mk position image) = quantity (Spot.mk position face) := by
    have htogether := h.quantity_applyAll_sub hspot
      (Spot.isSticker_reference hnumber hspot.position_mem) rfl algorithm
    rwa [himage, h.quantity_reference_eq hothers hnumber hspot.position_mem,
      sub_left_inj] at htogether
  rw [himage, hapart position hspot.position_mem image image.mem_all face face.mem_all
    hmoved.touches hspot.touches hquantity]

end Others

end IsBalanced

end LastLayer
