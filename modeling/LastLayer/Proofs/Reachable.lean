import LastLayer.Proofs.Motion

/-!
# Reachable cubes

An algorithm moves the cubie in each slot of a cube by itself (`Cube.slot_applyAll`), so what is
known about the motion of one cubie carries over to cubes. In particular an algorithm and its
inverse undo each other on every cube, slot for slot (`Cube.applyAll_inverse`).

The reachable cubes are those that moves lead to from the solved cube. They are closed under
algorithms, and each of them is the outcome of one algorithm (`Cube.reachable_iff`).
-/

namespace LastLayer

namespace Cube

/-- The cubie in a slot of a cube. -/
def slot (cube : Cube) (index : Fin 27) : Cubie :=
  cube.cubies.get (index.cast cube.length_cubies.symm)

theorem slot_mem_cubies (cube : Cube) (index : Fin 27) : cube.slot index ∈ cube.cubies :=
  List.get_mem _ _

theorem exists_slot_eq {cube : Cube} {cubie : Cubie} (h : cubie ∈ cube.cubies) :
    ∃ index, cube.slot index = cubie := by
  obtain ⟨index, hindex⟩ := List.get_of_mem h
  exact ⟨index.cast cube.length_cubies, hindex⟩

/-- An algorithm moves the cubies one by one. -/
theorem cubies_applyAll_eq_map (cube : Cube) (algorithm : Algorithm) :
    (cube.applyAll algorithm).cubies = cube.cubies.map (Turnable.applyAll algorithm) :=
  cubies_applyAll cube algorithm

theorem slot_applyAll (cube : Cube) (algorithm : Algorithm) (index : Fin 27) :
    (cube.applyAll algorithm).slot index = Turnable.applyAll algorithm (cube.slot index) := by
  simp [slot, cubies_applyAll_eq_map]

/-- Cubes with the same cubie in every slot are equal. -/
theorem ext_slot {cube other : Cube} (h : ∀ index, cube.slot index = other.slot index) :
    cube = other := by
  apply Cube.ext
  apply List.ext_get
  · rw [cube.length_cubies, other.length_cubies]
  · intro index hcube hother
    exact h ⟨index, cube.length_cubies ▸ hcube⟩

/-! ## Undoing algorithms -/

theorem applyAll_inverse (cube : Cube) (algorithm : Algorithm) :
    (cube.applyAll algorithm).applyAll algorithm.inverse = cube := by
  apply ext_slot
  intro index
  rw [slot_applyAll, slot_applyAll, Turnable.applyAll_inverse]

theorem applyAll_applyAll_inverse (cube : Cube) (algorithm : Algorithm) :
    (cube.applyAll algorithm.inverse).applyAll algorithm = cube := by
  have hundo := cube.applyAll_inverse algorithm.inverse
  rwa [Algorithm.inverse_inverse] at hundo

theorem isSolved_solved : solved.isSolved = true := by decide +kernel

/-- Whatever cube one starts from, doing an algorithm and undoing it, in either order, puts every
cubie back into the position and the facelets it had, each in its slot. Started on the solved cube,
both round trips end with a cube that is solved. -/
theorem round_trips_restore (algorithm : Algorithm) :
    (∀ cube : Cube, (cube.applyAll algorithm).applyAll algorithm.inverse = cube ∧
      (cube.applyAll algorithm.inverse).applyAll algorithm = cube) ∧
    ((solved.applyAll algorithm).applyAll algorithm.inverse).isSolved = true ∧
    ((solved.applyAll algorithm.inverse).applyAll algorithm).isSolved = true := by
  refine ⟨fun cube => ⟨?_, ?_⟩, ?_, ?_⟩
  · exact cube.applyAll_inverse algorithm
  · exact cube.applyAll_applyAll_inverse algorithm
  · rw [applyAll_inverse]
    exact isSolved_solved
  · rw [applyAll_applyAll_inverse]
    exact isSolved_solved

/-! ## Reachability -/

/-- The cubes that moves lead to from the solved cube. -/
inductive Reachable : Cube → Prop
  | solved : Reachable Cube.solved
  | apply {cube : Cube} (move : Move) : Reachable cube → Reachable (cube.apply move)

/-- Algorithms lead from reachable cubes to reachable cubes. -/
theorem Reachable.applyAll {cube : Cube} (h : cube.Reachable) (algorithm : Algorithm) :
    (cube.applyAll algorithm).Reachable := by
  induction algorithm generalizing cube with
  | nil => exact h
  | cons move algorithm ih => exact ih (h.apply move)

/-- A cube is reachable just if some algorithm leads to it from the solved cube. -/
theorem reachable_iff {cube : Cube} :
    cube.Reachable ↔ ∃ algorithm, cube = Cube.solved.applyAll algorithm := by
  constructor
  · intro h
    induction h with
    | solved => exact ⟨[], rfl⟩
    | apply move _ ih =>
      -- the last move goes behind the algorithm that leads up to it
      obtain ⟨algorithm, rfl⟩ := ih
      exact ⟨algorithm ++ [move], by rw [applyAll_append, applyAll_cons, applyAll_nil]⟩
  · rintro ⟨algorithm, rfl⟩
    exact Reachable.solved.applyAll algorithm

end Cube

end LastLayer
