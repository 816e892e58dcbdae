import LastLayer.Proofs.Agreement
import LastLayer.Proofs.Coaxial

/-!
# What the net turns of the layers decide

Moves about one axis turn each layer of that axis by its net turns. Four quarter turns of a layer
change nothing, so algorithms whose net turns agree modulo four make the same of every reachable cube
(`Cube.Reachable.applyAll_eq_of_layerTurns`).

The converse needs something in each layer that shows how far the layer has been turned. A position
off the axis does: only full turns bring it back (`Position.dvd_of_spin_zpow_offAxis`). So cubes that
agree after two algorithms about one axis betray equal net turns (`Cube.layerTurns_eq_of_solved`).
-/

namespace LastLayer

open Turnable (applyAll spin)

theorem Algorithm.layerTurns_append (first second : Algorithm) (layer : Int) :
    (first ++ second).layerTurns layer = first.layerTurns layer + second.layerTurns layer := by
  rw [layerTurns, List.map_append, List.sum_append, layerTurns, layerTurns]

/-! ## A position that shows how far its layer turned -/

namespace Position

/-- A position in a given layer of an axis, away from the axis. -/
def offAxis (axis : Axis) (layer : Int) : Position :=
  match axis with
  | .x => ⟨layer, 1, 1⟩
  | .y => ⟨1, layer, 1⟩
  | .z => ⟨1, 1, layer⟩

theorem component_offAxis (axis : Axis) (layer : Int) :
    (offAxis axis layer).component axis = layer := by
  cases axis <;> rfl

theorem offAxis_mem_grid (axis : Axis) {layer : Int} (h : layer ∈ layers) :
    offAxis axis layer ∈ grid := by
  have hone : (1 : Int) ∈ layers := by decide
  cases axis <;> simp [mem_grid, offAxis, h, hone]

/-- Only full turns bring a position off the axis back. -/
theorem dvd_of_spin_zpow_offAxis {axis : Axis} {layer turns : Int}
    (h : (spin axis ^ turns) (offAxis axis layer) = offAxis axis layer) : 4 ∣ turns := by
  rw [Turnable.spin_zpow] at h
  -- after one, two or three quarter turns another coordinate has changed its sign
  obtain hturns | hturns | hturns | hturns :
      turns % 4 = 0 ∨ turns % 4 = 1 ∨ turns % 4 = 2 ∨ turns % 4 = 3 := by omega
  · exact Int.dvd_of_emod_eq_zero hturns
  · rw [hturns] at h
    change (offAxis axis layer).rotate axis .counterclockwise = offAxis axis layer at h
    cases axis <;> simp [offAxis, rotate] at h
  · rw [hturns] at h
    change ((offAxis axis layer).rotate axis .counterclockwise).rotate axis .counterclockwise =
      offAxis axis layer at h
    cases axis <;> simp [offAxis, rotate] at h
  · rw [hturns] at h
    change (((offAxis axis layer).rotate axis .counterclockwise).rotate axis
      .counterclockwise).rotate axis .counterclockwise = offAxis axis layer at h
    cases axis <;> simp [offAxis, rotate] at h

end Position

/-! ## Algorithms about one axis -/

section Coaxial

variable {axis : Axis} {first second : Algorithm}
  (hfirst : ∀ move ∈ first, move.letter.turn.axis = axis)
  (hsecond : ∀ move ∈ second, move.letter.turn.axis = axis)

include hfirst hsecond

/-- Algorithms about one axis that give the layer of a thing the same net turns, up to full turns,
make the same of it. -/
theorem Turnable.applyAll_eq_of_layerTurns {α : Type} [Turnable α] {a : α}
    (h : first.layerTurns ((position a).component axis) % 4 =
      second.layerTurns ((position a).component axis) % 4) :
    applyAll first a = applyAll second a := by
  rw [applyAll_eq_spin_zpow hfirst, applyAll_eq_spin_zpow hsecond, spin_zpow, h, ← spin_zpow]

/-- If algorithms about one axis carry a position off the axis to the same place, they give its layer
the same net turns. -/
theorem Position.layerTurns_eq_of_applyAll_offAxis {layer : Int}
    (h : applyAll first (offAxis axis layer) = applyAll second (offAxis axis layer)) :
    first.layerTurns layer % 4 = second.layerTurns layer % 4 := by
  have hlayer : (Turnable.position (offAxis axis layer)).component axis = layer :=
    component_offAxis axis layer
  rw [Turnable.applyAll_eq_spin_zpow hfirst, Turnable.applyAll_eq_spin_zpow hsecond, hlayer] at h
  -- make the turns of `first` and take back those of `second`
  have hfixed : (spin axis ^ (-second.layerTurns layer + first.layerTurns layer))
      (offAxis axis layer) = offAxis axis layer := by
    rw [zpow_add, Equiv.Perm.mul_apply, h, ← Equiv.Perm.mul_apply, ← zpow_add, neg_add_cancel,
      zpow_zero, Equiv.Perm.one_apply]
  have hdvd := dvd_of_spin_zpow_offAxis hfixed
  omega

namespace Cube

variable (axis) in
theorem Reachable.applyAll_eq_of_layerTurns {cube : Cube} (hcube : cube.Reachable)
    (h : ∀ layer ∈ Position.layers, first.layerTurns layer % 4 = second.layerTurns layer % 4) :
    cube.applyAll first = cube.applyAll second := by
  apply ext_slot
  intro index
  rw [slot_applyAll, slot_applyAll]
  apply Turnable.applyAll_eq_of_layerTurns hfirst hsecond
  -- the cubies of a reachable cube are in the layers that are compared
  have hgrid : (cube.slot index).position ∈ Position.grid :=
    hcube.position_mem_grid (cube.slot_mem_cubies index)
  exact h _ (Position.component_mem_layers hgrid axis)

theorem layerTurns_eq_of_solved (h : solved.applyAll first = solved.applyAll second) {layer : Int}
    (hlayer : layer ∈ Position.layers) :
    first.layerTurns layer % 4 = second.layerTurns layer % 4 := by
  apply Position.layerTurns_eq_of_applyAll_offAxis hfirst hsecond
  exact Cubie.position_applyAll_congr
    (cubie_applyAll_eq_of_solved h (Position.offAxis_mem_grid axis hlayer))

end Cube

end Coaxial

namespace Cube

/-- Algorithms about one axis may be made in either order. -/
theorem Reachable.applyAll_append_comm {cube : Cube} (hcube : cube.Reachable) {axis : Axis}
    {first second : Algorithm} (hfirst : ∀ move ∈ first, move.letter.turn.axis = axis)
    (hsecond : ∀ move ∈ second, move.letter.turn.axis = axis) :
    cube.applyAll (first ++ second) = cube.applyAll (second ++ first) := by
  apply hcube.applyAll_eq_of_layerTurns axis (List.forall_mem_append.2 ⟨hfirst, hsecond⟩)
    (List.forall_mem_append.2 ⟨hsecond, hfirst⟩)
  intro layer _
  rw [Algorithm.layerTurns_append, Algorithm.layerTurns_append, add_comm]

/-- Moves about one axis are determined by their net turns: algorithms about an axis lead every
reachable cube to the same cube, slot for slot, if they give the three layers of the axis the same
net turns up to full turns; and if they lead the solved cube to cubes that agree, they do give them
the same net turns. So four quarter turns change nothing, a half turn is two quarter turns and a
backward one three, wide turns and rotations are made of the turns of their layers, and moves about
one axis commute. -/
theorem net_turns_decide :
    (∀ (axis : Axis) (first second : Algorithm),
      (∀ move ∈ first, move.letter.turn.axis = axis) →
        (∀ move ∈ second, move.letter.turn.axis = axis) →
          ((∀ layer ∈ Position.layers,
              first.layerTurns layer % 4 = second.layerTurns layer % 4) →
            ∀ cube : Cube, cube.Reachable → cube.applyAll first = cube.applyAll second) ∧
          ((solved.applyAll first).agreesWith (solved.applyAll second) = true →
            ∀ layer ∈ Position.layers,
              first.layerTurns layer % 4 = second.layerTurns layer % 4)) ∧
    ∀ cube : Cube, cube.Reachable →
      (∀ letter, cube.applyAll (List.replicate 4 ⟨letter, .quarter⟩) = cube ∧
        cube.applyAll [⟨letter, .half⟩] = cube.applyAll (List.replicate 2 ⟨letter, .quarter⟩) ∧
        cube.applyAll [⟨letter, .prime⟩] = cube.applyAll (List.replicate 3 ⟨letter, .quarter⟩)) ∧
      (cube.applyAll [⟨.r, .quarter⟩] = cube.applyAll [⟨.R, .quarter⟩, ⟨.M, .prime⟩] ∧
        cube.applyAll [⟨.f, .quarter⟩] = cube.applyAll [⟨.F, .quarter⟩, ⟨.S, .quarter⟩] ∧
        cube.applyAll [⟨.x, .quarter⟩] =
          cube.applyAll [⟨.R, .quarter⟩, ⟨.M, .prime⟩, ⟨.L, .prime⟩] ∧
        cube.applyAll [⟨.z, .quarter⟩] =
          cube.applyAll [⟨.F, .quarter⟩, ⟨.S, .quarter⟩, ⟨.B, .prime⟩]) ∧
      ∀ first second : Move, first.letter.turn.axis = second.letter.turn.axis →
        cube.applyAll [first, second] = cube.applyAll [second, first] := by
  refine ⟨?_, fun cube hcube => ⟨fun letter => ⟨?_, ?_, ?_⟩, ⟨?_, ?_, ?_, ?_⟩, ?_⟩⟩
  · intro axis first second hfirst hsecond
    refine ⟨?_, ?_⟩
    · intro hturns cube hcube
      exact hcube.applyAll_eq_of_layerTurns axis hfirst hsecond hturns
    · intro hagrees layer hlayer
      have hsame : solved.applyAll first = solved.applyAll second :=
        eq_of_agreesWith (Reachable.solved.applyAll first) (Reachable.solved.applyAll second)
          hagrees
      exact layerTurns_eq_of_solved hfirst hsecond hsame hlayer
  · change cube.applyAll _ = cube.applyAll []
    exact hcube.applyAll_eq_of_layerTurns letter.turn.axis (by simp) (by simp)
      (by cases letter <;> decide)
  · exact hcube.applyAll_eq_of_layerTurns letter.turn.axis (by simp) (by simp)
      (by cases letter <;> decide)
  · exact hcube.applyAll_eq_of_layerTurns letter.turn.axis (by simp) (by simp)
      (by cases letter <;> decide)
  · exact hcube.applyAll_eq_of_layerTurns .x (by decide) (by decide) (by decide)
  · exact hcube.applyAll_eq_of_layerTurns .z (by decide) (by decide) (by decide)
  · exact hcube.applyAll_eq_of_layerTurns .x (by decide) (by decide) (by decide)
  · exact hcube.applyAll_eq_of_layerTurns .z (by decide) (by decide) (by decide)
  · intro first second haxis
    change cube.applyAll ([first] ++ [second]) = cube.applyAll ([second] ++ [first])
    exact hcube.applyAll_append_comm (List.forall_mem_singleton.2 haxis)
      (List.forall_mem_singleton.2 rfl)

/-- The turns `x L2` and `r L' L' L'` differ by a full turn of the left layer. So they make the same
of the cube that `U f'` leads to; and since they make the same of the solved cube, the difference
could not have been anything else. -/
theorem net_turns_decide_up_to_full_turns :
    let first : Algorithm := [⟨.x, .quarter⟩, ⟨.L, .half⟩]
    let second : Algorithm := [⟨.r, .quarter⟩, ⟨.L, .prime⟩, ⟨.L, .prime⟩, ⟨.L, .prime⟩]
    let cube := solved.applyAll [⟨.U, .quarter⟩, ⟨.f, .prime⟩]
    (∀ move ∈ first, move.letter.turn.axis = .x) ∧
    (∀ move ∈ second, move.letter.turn.axis = .x) ∧ cube.Reachable ∧
    first.layerTurns (-1) = -1 ∧ second.layerTurns (-1) = 3 ∧
    cube.applyAll first = cube.applyAll second ∧
    (solved.applyAll first).agreesWith (solved.applyAll second) = true ∧
    ∀ layer ∈ Position.layers, first.layerTurns layer % 4 = second.layerTurns layer % 4 := by
  intro first second cube
  have hfirst : ∀ move ∈ first, move.letter.turn.axis = .x := by decide
  have hsecond : ∀ move ∈ second, move.letter.turn.axis = .x := by decide
  have hcube : cube.Reachable := Reachable.solved.applyAll _
  have hturns : ∀ layer ∈ Position.layers,
      first.layerTurns layer % 4 = second.layerTurns layer % 4 := by decide
  have hagrees : (solved.applyAll first).agreesWith (solved.applyAll second) = true := by
    decide
  obtain ⟨hsame, hdecided⟩ := net_turns_decide.1 .x first second hfirst hsecond
  exact ⟨hfirst, hsecond, hcube, by decide, by decide, hsame hturns cube hcube, hagrees,
    hdecided hagrees⟩

end Cube

end LastLayer
