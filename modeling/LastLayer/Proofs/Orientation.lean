import LastLayer.Proofs.Agreement
import LastLayer.Proofs.Balance
import LastLayer.Proofs.Covariance
import Mathlib.Algebra.BigOperators.Ring.Finset
import Mathlib.Algebra.Field.ZMod

/-!
# Twists of corners and flips of edges

The yellow or white sticker of a corner is in one of three places, counted clockwise from the upper
or lower face (`Cubie.twist`), and an edge has its marked sticker on the reference face of its
position or not (`Cubie.isFlipped`). Single moves change both, but in every reachable cube the twists
sum to a multiple of three (`Cube.sum_twist_applyAll`), and the number of flipped edges is even
(`Cube.countP_isFlipped_applyAll`).

Both are read off the spot of one sticker (`Spot.twist`, `Spot.flip`), as remainders modulo three and
two, and as such they are balanced quantities. That this spot is where a moved cubie shows the color
of the sticker is `Cubie.shows_applyAll_eq_beq`. Since balanced quantities leave the stickers of a
single position no freedom, a reachable cube that is solved but for one cubie is solved
(`Cube.Reachable.eq_solved_of_others`).
-/

namespace LastLayer

open Turnable (applyAll)

/-! ## Twist and flip of a spot -/

namespace Position

/-- The three faces that meet at a corner, clockwise for someone who looks at the corner from outside,
from the upper or lower one on. -/
def clockwiseFaces (position : Position) : List Face :=
  let lateral : Face := if position.touches .right then .right else .left
  let frontal : Face := if position.touches .front then .front else .back
  -- a reflection in one coordinate reverses the order
  if position.x * position.y * position.z = 1 then [position.referenceFace, lateral, frontal]
  else [position.referenceFace, frontal, lateral]

/-- A clockwise quarter turn of a face of a corner carries the next face to the one after it. -/
theorem turn_clockwiseFaces : ∀ position ∈ exposed 3,
    position.clockwiseFaces.zipWith
        (fun face next => next.turn face.axis (Sense.clockwise.seenFrom face))
        (position.clockwiseFaces.rotate 1) =
      position.clockwiseFaces.rotate 2 := by
  decide

theorem mem_clockwiseFaces : ∀ position ∈ exposed 3, ∀ face ∈ Face.all,
    face ∈ position.clockwiseFaces ↔ position.touches face = true := by
  decide

theorem length_clockwiseFaces (position : Position) : position.clockwiseFaces.length = 3 := by
  rw [clockwiseFaces]
  split <;> rfl

end Position

namespace Spot

/-- How many faces a spot of a corner is away, clockwise, from the upper or lower face. -/
def twist (spot : Spot) : ZMod 3 :=
  (spot.position.clockwiseFaces.idxOf spot.face : Nat)

/-- One for the spots of an edge that are not on its reference face. -/
def flip (spot : Spot) : ZMod 2 :=
  if spot.face = spot.position.referenceFace then 0 else 1

theorem isBalanced_twist : IsBalanced 3 twist := by decide

theorem isBalanced_flip : IsBalanced 2 flip := by decide

theorem tellsApart_twist : TellsApart 3 twist := by decide

theorem tellsApart_flip : TellsApart 2 flip := by decide

/-- The one sticker of a centre has nothing to be told apart from. -/
theorem tellsApart_zero : TellsApart 1 fun _ => (0 : ZMod 2) := by decide

theorem IsSticker.idxOf_lt {spot : Spot} (h : spot.IsSticker 3) :
    spot.position.clockwiseFaces.idxOf spot.face < 3 := by
  rw [← spot.position.length_clockwiseFaces, List.idxOf_lt_length_iff]
  exact (Position.mem_clockwiseFaces _ h.position_mem _ spot.face.mem_all).2 h.touches

end Spot

/-! ## Twist and flip of a cubie -/

theorem Face.find?_all_beq (face : Face) : all.find? (· == face) = some face := by
  cases face <;> rfl

namespace Cubie

/-- Whether a cubie shows one of some colors on a face. -/
def shows (cubie : Cubie) (colors : List Color) (face : Face) : Bool :=
  (cubie.facelet face).any fun color => color ∈ colors

/-- How far the yellow or white sticker of a corner is, clockwise, from the upper or lower face. -/
def twist (cubie : Cubie) : Nat :=
  cubie.position.clockwiseFaces.findIdx (cubie.shows [.yellow, .white])

/-- The face with the yellow or white sticker of an edge or, if it has none, with its green or blue
sticker. -/
def markedFace? (cubie : Cubie) : Option Face :=
  (Face.all.find? (cubie.shows [.yellow, .white])).or
    (Face.all.find? (cubie.shows [.green, .blue]))

/-- An edge is flipped if its marked sticker is not on the reference face of its position. -/
def isFlipped (cubie : Cubie) : Bool :=
  cubie.markedFace? ≠ some cubie.position.referenceFace

/-- What a moved cubie shows on a face comes from the face that is carried there. -/
theorem exists_shows_applyAll_eq (algorithm : Algorithm) (cubie : Cubie) (colors : List Color)
    (image : Face) :
    ∃ source, applyAll algorithm (Spot.mk cubie.position source) =
        Spot.mk (applyAll algorithm cubie.position) image ∧
      (applyAll algorithm cubie).shows colors image = cubie.shows colors source := by
  obtain ⟨source, hsource⟩ := Spot.exists_applyAll_eq algorithm cubie.position image
  refine ⟨source, hsource, ?_⟩
  have hfacelet := cubie.facelet_applyAll algorithm source
  rw [hsource] at hfacelet
  rw [shows, hfacelet, shows]

/-- A cubie that shows some colors on one face only goes on doing so, on the face to which that one is
carried. -/
theorem shows_applyAll_eq_beq {cubie : Cubie} {colors : List Color} {face : Face}
    (h : ∀ other, cubie.shows colors other = (other == face)) (algorithm : Algorithm) :
    (applyAll algorithm cubie).shows colors =
      (· == (applyAll algorithm (Spot.mk cubie.position face)).face) := by
  funext image
  obtain ⟨source, hsource, hshows⟩ := exists_shows_applyAll_eq algorithm cubie colors image
  rw [hshows, h, Bool.eq_iff_iff, beq_iff_eq, beq_iff_eq]
  constructor
  · rintro rfl
    rw [hsource]
  · rintro rfl
    -- different spots of one position are carried to different faces
    have hspot : applyAll algorithm (Spot.mk cubie.position source) =
        applyAll algorithm (Spot.mk cubie.position face) := by
      rw [hsource]
      exact Spot.ext (Spot.position_applyAll algorithm (Spot.mk cubie.position face)).symm rfl
    exact congrArg Spot.face (Turnable.applyAll_injective algorithm hspot)

theorem shows_applyAll_eq_false {cubie : Cubie} {colors : List Color}
    (h : ∀ face, cubie.shows colors face = false) (algorithm : Algorithm) :
    (applyAll algorithm cubie).shows colors = fun _ => false := by
  funext image
  obtain ⟨source, -, hshows⟩ := exists_shows_applyAll_eq algorithm cubie colors image
  rw [hshows, h]

/-! ### Corners -/

theorem shows_solved_of_corner : ∀ position ∈ Position.exposed 3, ∀ face ∈ Face.all,
    (solved position).shows [.yellow, .white] face = (face == position.referenceFace) := by
  decide

/-- The twist of a corner is that of the spot to which the reference spot is carried. -/
theorem twist_applyAll_solved (algorithm : Algorithm) {position : Position}
    (h : position ∈ Position.exposed 3) :
    (applyAll algorithm (solved position)).twist =
      (applyAll algorithm position.reference).position.clockwiseFaces.idxOf
        (applyAll algorithm position.reference).face := by
  have hshows := shows_applyAll_eq_beq
    (fun face => shows_solved_of_corner position h face face.mem_all) algorithm
  rw [twist, hshows, position_applyAll, Spot.position_applyAll]
  rfl

theorem twist_applyAll_solved_lt (algorithm : Algorithm) {position : Position}
    (h : position ∈ Position.exposed 3) : (applyAll algorithm (solved position)).twist < 3 := by
  rw [twist_applyAll_solved algorithm h]
  exact ((Spot.isSticker_reference (by decide) h).applyAll algorithm).idxOf_lt

/-! ### Edges -/

theorem shows_solved_of_edge : ∀ position ∈ Position.exposed 2,
    (∀ face ∈ Face.all,
      (solved position).shows [.yellow, .white] face = (face == position.referenceFace)) ∨
    (∀ face ∈ Face.all, (solved position).shows [.yellow, .white] face = false) ∧
      ∀ face ∈ Face.all,
        (solved position).shows [.green, .blue] face = (face == position.referenceFace) := by
  decide

/-- The marked sticker of an edge is the one that is on the reference face of the solved edge. -/
theorem markedFace?_applyAll_solved (algorithm : Algorithm) {position : Position}
    (h : position ∈ Position.exposed 2) :
    (applyAll algorithm (solved position)).markedFace? =
      some (applyAll algorithm position.reference).face := by
  rcases shows_solved_of_edge position h with hfirst | ⟨hnone, hsecond⟩
  · have hshows := shows_applyAll_eq_beq (fun face => hfirst face face.mem_all) algorithm
    rw [markedFace?, hshows, Face.find?_all_beq]
    rfl
  · -- an edge of the middle layer is marked by its second pair of colors
    have hshows := shows_applyAll_eq_false (fun face => hnone face face.mem_all) algorithm
    have hshows' := shows_applyAll_eq_beq (fun face => hsecond face face.mem_all) algorithm
    rw [markedFace?, hshows, hshows', Face.find?_all_beq, List.find?_eq_none.2 (by simp),
      Option.none_or]
    rfl

theorem flip_applyAll_reference (algorithm : Algorithm) {position : Position}
    (h : position ∈ Position.exposed 2) :
    (applyAll algorithm position.reference).flip =
      if (applyAll algorithm (solved position)).isFlipped then 1 else 0 := by
  rw [isFlipped, markedFace?_applyAll_solved algorithm h, position_applyAll, Spot.flip,
    Spot.position_applyAll]
  simp only [ne_eq, Option.some_inj, decide_not, Bool.not_eq_true', decide_eq_false_iff_not, ite_not]
  rfl

/-! ### Cubies that stay where they are -/

/-- A solved cubie all of whose stickers stay where they are is itself left as it is. -/
theorem applyAll_solved_eq_self {algorithm : Algorithm} {position : Position}
    (hfixed : applyAll algorithm position = position)
    (h : ∀ face, position.touches face = true →
      applyAll algorithm (Spot.mk position face) = Spot.mk position face) :
    applyAll algorithm (solved position) = solved position := by
  refine Cubie.ext ((position_applyAll algorithm _).trans hfixed) (Facelets.ext_get fun face => ?_)
  change (applyAll algorithm (solved position)).facelet face = (solved position).facelet face
  by_cases htouches : position.touches face = true
  · have hfacelet := facelet_applyAll algorithm (solved position) face
    rwa [show applyAll algorithm (Spot.mk (solved position).position face) = _ from
      h face htouches] at hfacelet
  · -- where the position is not exposed, nothing shows before or after
    have hblank := (fits_solved position).applyAll algorithm face
    rw [position_applyAll, show applyAll algorithm (solved position).position = position from hfixed,
      Bool.eq_false_iff.2 htouches, Option.isSome_eq_false_iff, Option.isNone_iff_eq_none] at hblank
    rw [hblank, facelet_solved, if_neg htouches]

/-- If all solved cubies but one are left as they are, then so is the last one. -/
theorem applyAll_solved_of_others {algorithm : Algorithm} {position : Position}
    (hmem : position ∈ Position.grid)
    (hothers : ∀ other ∈ Position.grid, other ≠ position →
      applyAll algorithm (solved other) = solved other) :
    applyAll algorithm (solved position) = solved position := by
  -- the place is left over for the cubie, since algorithms are injective
  have hfixed : applyAll algorithm position = position := by
    by_contra hmoved
    have hother := hothers _ (Position.applyAll_mem_grid algorithm hmem) hmoved
    have hposition := congrArg Cubie.position hother
    rw [position_applyAll] at hposition
    exact hmoved (Turnable.applyAll_injective algorithm hposition)
  have hreference : ∀ number, 0 < number → ∀ other ∈ Position.exposed number, other ≠ position →
      applyAll algorithm other.reference = other.reference := by
    intro number hnumber other hother hne
    have hsame : applyAll algorithm (solved other) = applyAll [] (solved other) :=
      hothers other (Position.mem_exposed.1 hother).1 hne
    exact Spot.applyAll_eq_of_solved hsame (Spot.isSticker_reference hnumber hother).touches
  refine applyAll_solved_eq_self hfixed fun face htouches => ?_
  -- centres have one sticker; those of edges and corners are told apart by flip and twist
  obtain hcentre | hedge | hcorner := Position.exposed_of_touches hmem htouches
  · exact (isBalanced_zero 1).applyAll_eq_self_of_others (hreference 1 (by decide))
      Spot.tellsApart_zero ⟨hcentre, htouches⟩ hfixed
  · exact Spot.isBalanced_flip.applyAll_eq_self_of_others (hreference 2 (by decide))
      Spot.tellsApart_flip ⟨hedge, htouches⟩ hfixed
  · exact Spot.isBalanced_twist.applyAll_eq_self_of_others (hreference 3 (by decide))
      Spot.tellsApart_twist ⟨hcorner, htouches⟩ hfixed

end Cubie

/-! ## Cubes -/

theorem natCast_countP {α : Type} (condition : α → Bool) (items : List α) :
    ((items.countP condition : Nat) : ZMod 2) =
      (items.map fun item => if condition item then 1 else 0).sum := by
  induction items with
  | nil => rfl
  | cons item items ih =>
    rw [List.countP_cons, Nat.cast_add, ih, List.map_cons, List.sum_cons, add_comm]
    split <;> rfl

namespace Cube

/-- The corners of a cube. -/
def corners (cube : Cube) : List Cubie :=
  cube.cubies.filter (·.position.exposure = 3)

/-- The edges of a cube. -/
def edges (cube : Cube) : List Cubie :=
  cube.cubies.filter (·.position.exposure = 2)

theorem filter_exposure_applyAll (algorithm : Algorithm) (number : Nat) :
    (solved.applyAll algorithm).cubies.filter (·.position.exposure = number) =
      (Position.exposed number).map fun position =>
        Turnable.applyAll algorithm (Cubie.solved position) := by
  rw [cubies_applyAll_eq_map, solved, List.map_map, List.filter_map, Position.exposed]
  congr 2
  funext position
  change decide ((Turnable.applyAll algorithm (Cubie.solved position)).position.exposure = number) = _
  rw [Cubie.position_applyAll, Position.exposure_applyAll]
  rfl

theorem corners_applyAll (algorithm : Algorithm) :
    (solved.applyAll algorithm).corners =
      (Position.exposed 3).map fun position => Turnable.applyAll algorithm (Cubie.solved position) :=
  filter_exposure_applyAll algorithm 3

theorem edges_applyAll (algorithm : Algorithm) :
    (solved.applyAll algorithm).edges =
      (Position.exposed 2).map fun position => Turnable.applyAll algorithm (Cubie.solved position) :=
  filter_exposure_applyAll algorithm 2

theorem sum_twist_applyAll (algorithm : Algorithm) :
    ((solved.applyAll algorithm).corners.map Cubie.twist).sum % 3 = 0 := by
  have hsum : ((((solved.applyAll algorithm).corners.map Cubie.twist).sum : Nat) : ZMod 3) = 0 :=
    calc ((((solved.applyAll algorithm).corners.map Cubie.twist).sum : Nat) : ZMod 3)
        = ((Position.exposed 3).map fun position =>
            (Turnable.applyAll algorithm position.reference).twist).sum := by
          rw [Nat.cast_list_sum, corners_applyAll, List.map_map, List.map_map]
          congr 1
          exact List.map_congr_left fun position hposition =>
            congrArg Nat.cast (Cubie.twist_applyAll_solved algorithm hposition)
      _ = ((Position.exposed 3).map fun position => position.reference.twist).sum :=
          Spot.isBalanced_twist.sum_reference (by decide) algorithm
      _ = 0 := by decide
  exact Nat.mod_eq_zero_of_dvd ((ZMod.natCast_eq_zero_iff _ 3).1 hsum)

theorem countP_isFlipped_applyAll (algorithm : Algorithm) :
    (solved.applyAll algorithm).edges.countP Cubie.isFlipped % 2 = 0 := by
  have hsum : (((solved.applyAll algorithm).edges.countP Cubie.isFlipped : Nat) : ZMod 2) = 0 :=
    calc (((solved.applyAll algorithm).edges.countP Cubie.isFlipped : Nat) : ZMod 2)
        = ((Position.exposed 2).map fun position =>
            (Turnable.applyAll algorithm position.reference).flip).sum := by
          rw [natCast_countP, edges_applyAll, List.map_map]
          congr 1
          exact List.map_congr_left fun position hposition =>
            (Cubie.flip_applyAll_reference algorithm hposition).symm
      _ = ((Position.exposed 2).map fun position => position.reference.flip).sum :=
          Spot.isBalanced_flip.sum_reference (by decide) algorithm
      _ = 0 := by decide
  exact Nat.mod_eq_zero_of_dvd ((ZMod.natCast_eq_zero_iff _ 2).1 hsum)

/-- A reachable cube that is solved in all slots but one is solved. -/
theorem Reachable.eq_solved_of_others {cube : Cube} (h : cube.Reachable) {index : Fin 27}
    (hothers : ∀ other, other ≠ index → cube.slot other = Cube.solved.slot other) :
    cube = Cube.solved := by
  obtain ⟨algorithm, rfl⟩ := reachable_iff.1 h
  apply ext_slot
  intro other
  by_cases hother : other = index
  · subst hother
    rw [slot_applyAll, slot_solved]
    refine Cubie.applyAll_solved_of_others (List.get_mem _ _) fun position hposition hne => ?_
    -- the cubie of any other position is in another slot
    obtain ⟨source, hsource⟩ : ∃ source, Cube.solved.slot source = Cubie.solved position :=
      exists_slot_eq (List.mem_map_of_mem hposition)
    have hdifferent : source ≠ other := by
      rintro rfl
      rw [slot_solved] at hsource
      exact hne (congrArg Cubie.position hsource).symm
    have hsame := hothers source hdifferent
    rwa [slot_applyAll, hsource] at hsame
  · exact hothers other hother

/-- The physical laws of orientation, for every cube that moves lead to from the solved one: of its
eight corners each has a twist of 0, 1 or 2, and the twists sum to a multiple of three; its twelve edges
are each marked on one face, and an even number of them is flipped. A cube that differs from the solved
one in a single slot, as by a corner twisted or an edge flipped in place, is not reachable. -/
theorem orientation_kept {cube : Cube} (h : cube.Reachable) :
    (cube.corners.length = 8 ∧ (∀ corner ∈ cube.corners, corner.twist < 3) ∧
      (cube.corners.map Cubie.twist).sum % 3 = 0) ∧
    (cube.edges.length = 12 ∧ (∀ edge ∈ cube.edges, edge.markedFace?.isSome = true) ∧
      cube.edges.countP Cubie.isFlipped % 2 = 0) ∧
    ∀ index, (∀ other, other ≠ index → cube.slot other = solved.slot other) → cube = solved := by
  obtain ⟨algorithm, rfl⟩ := reachable_iff.1 h
  refine ⟨⟨?_, ?_, ?_⟩, ⟨?_, ?_, ?_⟩, fun index => h.eq_solved_of_others⟩
  · rw [corners_applyAll, List.length_map]
    decide
  · intro corner hcorner
    rw [corners_applyAll] at hcorner
    obtain ⟨position, hposition, rfl⟩ := List.mem_map.1 hcorner
    exact Cubie.twist_applyAll_solved_lt algorithm hposition
  · exact sum_twist_applyAll algorithm
  · rw [edges_applyAll, List.length_map]
    decide
  · intro edge hedge
    rw [edges_applyAll] at hedge
    obtain ⟨position, hposition, rfl⟩ := List.mem_map.1 hedge
    rw [Cubie.markedFace?_applyAll_solved algorithm hposition]
    rfl
  · exact countP_isFlipped_applyAll algorithm

/-- After `R U f'` three corners are twisted and eight edges are flipped, and whichever slot one leaves
out, another one differs from the solved cube. After `M2 M2` the slots other than the first are solved,
and so is the first. -/
theorem orientation_kept_after_three_moves :
    let cube := solved.applyAll [⟨.R, .quarter⟩, ⟨.U, .quarter⟩, ⟨.f, .prime⟩]
    let twice := solved.applyAll [⟨.M, .half⟩, ⟨.M, .half⟩]
    (cube.Reachable ∧ twice.Reachable) ∧
    (cube.corners.map Cubie.twist = [1, 0, 0, 0, 0, 1, 0, 1] ∧
      (cube.corners.map Cubie.twist).sum % 3 = 0) ∧
    (cube.edges.countP Cubie.isFlipped = 8 ∧ cube.edges.countP Cubie.isFlipped % 2 = 0) ∧
    (∀ index, ∃ other, other ≠ index ∧ cube.slot other ≠ solved.slot other) ∧
    (∀ other, other ≠ 0 → twice.slot other = solved.slot other) ∧ twice = solved := by
  intro cube twice
  have hcube : cube.Reachable := Reachable.solved.applyAll _
  have htwice : twice.Reachable := Reachable.solved.applyAll _
  obtain ⟨⟨-, -, htwists⟩, ⟨-, -, hflips⟩, hone⟩ := orientation_kept hcube
  have hothers : ∀ other, other ≠ 0 → twice.slot other = solved.slot other := by decide
  refine ⟨⟨hcube, htwice⟩, ⟨by decide, htwists⟩, ⟨by decide, hflips⟩, ?_, hothers,
    (orientation_kept htwice).2.2 0 hothers⟩
  intro index
  by_contra hsame
  simp only [not_exists, not_and, not_not] at hsame
  have hunsolved : cube.isSolved = false := by decide
  rw [hone index hsame, isSolved_solved] at hunsolved
  cases hunsolved

end Cube

end LastLayer
