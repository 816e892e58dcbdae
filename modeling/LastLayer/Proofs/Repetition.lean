import LastLayer.Proofs.Rigidity
import Mathlib.Dynamics.PeriodicPts.Lemmas

/-!
# Repeating an algorithm

Every algorithm, done often enough, brings every cube back (`Cube.repetition_restores`), and how
often does not depend on the cube.

A cubie moves as one body, so all it can ever become is told by one of the 24 rotations of the whole
cube: its pose (`Pose`). Poses turn as cubies do, and an algorithm carries different poses to
different poses. There are only finitely many poses, so each of them comes back after the same
number of repetitions (`Pose.iterate_applyAll`), and the cubie comes back with its pose
(`Cubie.iterate_applyAll`).
-/

namespace LastLayer

open Turnable (applyAll)

namespace Rotation

@[simp]
theorem turned_turned_reverse (rotation : Rotation) (axis : Axis) (sense : Sense) :
    (rotation.turned axis sense).turned axis sense.reverse = rotation := by
  apply ext_face
  intro face
  rw [face_turned, face_turned, Face.turn_turn_reverse]

theorem half_turned (rotation : Rotation) (axis : Axis) (sense : Sense) :
    (rotation.turned axis sense).turned axis sense =
      (rotation.turned axis sense.reverse).turned axis sense.reverse := by
  apply ext_face
  intro face
  simp only [face_turned]
  rw [Face.half_turn]

/-- What the rotation that leaves everything where it is carries a cubie to is that cubie. -/
theorem Carries.eq_of_identity {start cubie : Cubie} (h : identity.Carries start cubie) :
    cubie = start := by
  apply Cubie.ext
  · rw [h.position_eq, position_identity]
  · apply Facelets.ext_get
    intro face
    have hfacelet := h.facelet_eq face
    rwa [face_identity] at hfacelet

end Rotation

/-! ## Poses -/

/-- How a cubie may lie that started out at a given position. -/
structure Pose (start : Position) where
  /-- The rotation that has carried the cubie there. -/
  rotation : Rotation

namespace Pose

variable {start : Position}

/-- A pose is no more than a rotation. -/
def equivRotation (start : Position) : Rotation ≃ Pose start where
  toFun := .mk
  invFun := rotation
  left_inv _ := rfl
  right_inv _ := rfl

instance : Fintype (Pose start) :=
  .ofEquiv Rotation (equivRotation start)

theorem card : Fintype.card (Pose start) = 24 :=
  (Fintype.ofEquiv_card (equivRotation start)).trans Rotation.card

instance : Turnable (Pose start) where
  position pose := pose.rotation.position start
  turn pose axis sense := ⟨pose.rotation.turned axis sense⟩
  position_turn pose axis sense := pose.rotation.position_turned axis sense start
  turn_turn_reverse pose axis sense :=
    congrArg mk (pose.rotation.turned_turned_reverse axis sense)
  half_turn pose axis sense := congrArg mk (pose.rotation.half_turned axis sense)

/-- Any algorithm, repeated 24! times, brings every pose back. -/
theorem iterate_applyAll (algorithm : Algorithm) (pose : Pose start) :
    (applyAll algorithm)^[Nat.factorial 24] pose = pose := by
  have hinjective : Function.Injective (applyAll algorithm : Pose start → Pose start) :=
    fun _ _ => Turnable.applyAll_injective algorithm
  -- a permutation of finitely many things has an order, which divides the factorial of their number
  have hid := Function.injective_iff_iterate_factorial_card_eq_id.1 hinjective
  rw [card] at hid
  exact congrFun hid pose

end Pose

namespace Rotation

variable {start cubie : Cubie} {pose : Pose start.position}

/-- An algorithm moves a cubie as it moves the pose of the cubie. -/
theorem Carries.applyAll (h : pose.rotation.Carries start cubie) (algorithm : Algorithm) :
    (Turnable.applyAll algorithm pose).rotation.Carries start
      (Turnable.applyAll algorithm cubie) := by
  refine Turnable.applyAll_simulation
    (fun (pose : Pose start.position) (cubie : Cubie) => pose.rotation.Carries start cubie)
    ?_ ?_ algorithm h
  · intro pose cubie hcarries
    exact hcarries.position_eq.symm
  · intro pose cubie axis sense hcarries
    exact hcarries.turn axis sense

theorem Carries.iterate_applyAll (h : pose.rotation.Carries start cubie) (algorithm : Algorithm)
    (n : Nat) :
    ((Turnable.applyAll algorithm)^[n] pose).rotation.Carries start
      ((Turnable.applyAll algorithm)^[n] cubie) := by
  induction n with
  | zero => exact h
  | succ n ih =>
    rw [Function.iterate_succ_apply', Function.iterate_succ_apply']
    exact ih.applyAll algorithm

end Rotation

/-! ## Cubies and cubes -/

/-- Any algorithm, repeated 24! times, brings every cubie back. -/
theorem Cubie.iterate_applyAll (algorithm : Algorithm) (cubie : Cubie) :
    (applyAll algorithm)^[Nat.factorial 24] cubie = cubie := by
  -- the cubie is what it is in the pose in which nothing has been turned yet
  let pose : Pose cubie.position := ⟨.identity⟩
  have hcarries : pose.rotation.Carries cubie cubie := Rotation.carries_identity cubie
  have hafter := hcarries.iterate_applyAll algorithm (Nat.factorial 24)
  rw [Pose.iterate_applyAll] at hafter
  exact hafter.eq_of_identity

namespace Cube

theorem slot_iterate_applyAll (cube : Cube) (algorithm : Algorithm) (n : Nat) (index : Fin 27) :
    ((fun cube => cube.applyAll algorithm)^[n] cube).slot index =
      (Turnable.applyAll algorithm)^[n] (cube.slot index) := by
  induction n with
  | zero => rfl
  | succ n ih =>
    rw [Function.iterate_succ_apply', Function.iterate_succ_apply', slot_applyAll, ih]

/-- Repeating an algorithm restores every cube, reachable or not, slot for slot: for every algorithm
there is a number of repetitions, the same for all cubes, after which each slot holds the cubie that
it held. -/
theorem repetition_restores (algorithm : Algorithm) :
    ∃ n, 1 ≤ n ∧ ∀ cube : Cube, (fun cube => cube.applyAll algorithm)^[n] cube = cube := by
  refine ⟨Nat.factorial 24, Nat.factorial_pos 24, fun cube => ?_⟩
  apply ext_slot
  intro index
  rw [slot_iterate_applyAll, Cubie.iterate_applyAll]

end Cube

end LastLayer
