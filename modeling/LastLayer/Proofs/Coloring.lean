import LastLayer.Proofs.Agreement

/-!
# The colors of a cube

What a viewer sees of a cube is the color at each spot, whatever slot the cubie is stored in. An
algorithm carries the color at a spot to wherever it carries the spot (`Cube.colorAt?_applyAll`), so
the colors that show after an algorithm can be read off the colors before it, by tracing each spot
back (`Cube.colorAt?_applyAll_eq`).

Where a single move carries a spot can be said without reference to cubies. It turns the position of
the spot and the normal of its face alike, by the same number of quarter turns, if the position lies
in its layers, and leaves both alone otherwise (`Move.carry`).
-/

namespace LastLayer

namespace Cube

/-- The color that shows at a spot of a cube. -/
def colorAt? (cube : Cube) (spot : Spot) : Option Color :=
  (cube.cubieAt? spot.position).bind (·.facelet spot.face)

/-- The cubie that an algorithm brings to a place is the moved cubie that was where the place comes
from. -/
theorem cubieAt?_applyAll (cube : Cube) (algorithm : Algorithm) (position : Position) :
    (cube.applyAll algorithm).cubieAt? (Turnable.applyAll algorithm position) =
      (cube.cubieAt? position).map (Turnable.applyAll algorithm) := by
  -- positions are moved injectively, so both searches stop at the same slot
  have hsame : ∀ cubie : Cubie,
      (Turnable.applyAll algorithm cubie).position = Turnable.applyAll algorithm position ↔
        cubie.position = position := by
    intro cubie
    rw [Cubie.position_applyAll]
    exact ⟨Turnable.applyAll_injective algorithm, congrArg _⟩
  rw [cubieAt?, cubies_applyAll_eq_map, List.find?_map, cubieAt?]
  simp only [Function.comp_def, hsame]

theorem colorAt?_applyAll (cube : Cube) (algorithm : Algorithm) (spot : Spot) :
    (cube.applyAll algorithm).colorAt? (Turnable.applyAll algorithm spot) = cube.colorAt? spot := by
  rw [colorAt?, Spot.position_applyAll, cubieAt?_applyAll, colorAt?]
  cases hfound : cube.cubieAt? spot.position with
  | none => rfl
  | some cubie =>
    -- the spot moves like a sticker of the cubie that is there
    obtain ⟨position, face⟩ := spot
    obtain rfl : cubie.position = position := position_of_cubieAt? hfound
    exact cubie.facelet_applyAll algorithm face

/-- A spot shows after an algorithm what showed where the algorithm carries it from. -/
theorem colorAt?_applyAll_eq (cube : Cube) (algorithm : Algorithm) (spot : Spot) :
    (cube.applyAll algorithm).colorAt? spot =
      cube.colorAt? (Turnable.applyAll algorithm.inverse spot) := by
  rw [← colorAt?_applyAll cube algorithm, Turnable.applyAll_applyAll_inverse]

theorem cubieAt?_solved {position : Position} (h : position ∈ Position.grid) :
    solved.cubieAt? position = some (Cubie.solved position) :=
  Reachable.solved.cubieAt?_position (List.mem_map_of_mem h)

theorem cubieAt?_solved_eq_none {position : Position} (h : position ∉ Position.grid) :
    solved.cubieAt? position = none := by
  rw [cubieAt?, List.find?_eq_none]
  intro cubie hcubie
  obtain ⟨source, hsource, rfl⟩ := List.mem_map.1 hcubie
  rw [decide_eq_true_iff]
  rintro rfl
  exact h hsource

/-- On the solved cube a color shows on its own face only, wherever this face is exposed. -/
theorem colorAt?_solved_eq_some_iff {spot : Spot} {color : Color} :
    solved.colorAt? spot = some color ↔
      spot.position ∈ Position.grid ∧ spot.position.touches spot.face = true ∧
        spot.face.color = color := by
  rw [colorAt?]
  by_cases h : spot.position ∈ Position.grid
  · rw [cubieAt?_solved h, Option.bind_some, Cubie.facelet_solved, Option.ite_none_right_eq_some,
      Option.some_inj]
    exact (and_iff_right h).symm
  · rw [cubieAt?_solved_eq_none h, Option.bind_none]
    exact iff_of_false nofun fun hshown => h hshown.1

end Cube

/-! ## Where one move carries a spot -/

/-- What a move makes of a vector (a position or the normal of a face) that belongs to a cubie at
`origin`: it is turned, as often as the move makes its quarter turn, if `origin` lies in the layers
of the move, and left alone otherwise. -/
def Move.carry (move : Move) (origin vector : Position) : Position :=
  if move.turn.selects origin then
    move.quarterTurns.repeat (fun v => v.rotate move.turn.axis move.turn.sense) vector
  else vector

theorem Position.apply_eq_carry (move : Move) (position : Position) :
    Turnable.apply move position = move.carry position position :=
  Turnable.apply_eq_ite move position

theorem Spot.normal_repeat_turn (axis : Axis) (sense : Sense) (n : Nat) (spot : Spot) :
    (Nat.repeat (fun s : Spot => s.turn axis sense) n spot).face.normal =
      Nat.repeat (fun v => v.rotate axis sense) n spot.face.normal := by
  induction n with
  | zero => rfl
  | succ n ih => rw [Nat.repeat, turn, Face.normal_turn, ih, Nat.repeat]

/-- The face of a spot goes where its normal is turned. -/
theorem Spot.normal_apply (move : Move) (spot : Spot) :
    (Turnable.apply move spot).face.normal = move.carry spot.position spot.face.normal := by
  have hposition : Turnable.position spot = spot.position := rfl
  rw [Turnable.apply_eq_ite, Move.carry, hposition]
  by_cases h : move.turn.selects spot.position = true
  · rw [if_pos h, if_pos h]
    exact normal_repeat_turn move.turn.axis move.turn.sense move.quarterTurns spot
  · rw [if_neg h, if_neg h]

namespace Cube

/-- A cubie outside the layers of a move stays as it is, in its slot. -/
theorem slot_apply_of_not_selects (cube : Cube) {move : Move} {index : Fin 27}
    (h : ¬ move.turn.selects (cube.slot index).position = true) :
    (cube.apply move).slot index = cube.slot index := by
  change (cube.applyAll [move]).slot index = cube.slot index
  rw [slot_applyAll, Turnable.applyAll_cons, Turnable.applyAll_nil, Turnable.apply_eq_ite]
  exact if_neg h

theorem cubieAt?_apply_carry (cube : Cube) (move : Move) (position : Position) :
    (cube.apply move).cubieAt? (move.carry position position) =
      (cube.cubieAt? position).map (Turnable.apply move) := by
  rw [← Position.apply_eq_carry]
  exact cubieAt?_applyAll cube [move] position

/-- After a move, the cubie of a place is found where the move carries the place, and it shows on
each turned face what it showed on the face before. -/
theorem Reachable.exists_cubieAt?_apply {cube : Cube} (h : cube.Reachable) (move : Move)
    {position : Position} (hposition : position ∈ Position.grid) (face : Face) :
    ∃ (before after : Cubie) (image : Face),
      cube.cubieAt? position = some before ∧
      (cube.apply move).cubieAt? (move.carry position position) = some after ∧
      image.normal = move.carry position face.normal ∧
      after.facelet image = before.facelet face := by
  obtain ⟨before, hbefore⟩ := h.exists_cubieAt? hposition
  obtain rfl : before.position = position := position_of_cubieAt? hbefore
  refine ⟨before, Turnable.apply move before,
    (Turnable.apply move (Spot.mk before.position face)).face, hbefore, ?_,
    Spot.normal_apply move _, ?_⟩
  · rw [cubieAt?_apply_carry, hbefore, Option.map_some]
  · exact before.facelet_applyAll [move] face

/-- What shows after a move depends on what shows before it, and not on the slots in which two cubes
store their cubies. -/
theorem colorAt?_apply_congr {cube other : Cube}
    (h : ∀ position ∈ Position.grid, ∀ face,
      cube.colorAt? ⟨position, face⟩ = other.colorAt? ⟨position, face⟩)
    (move : Move) {position : Position} (hposition : position ∈ Position.grid) (face : Face) :
    (cube.apply move).colorAt? ⟨position, face⟩ = (other.apply move).colorAt? ⟨position, face⟩ := by
  change (cube.applyAll [move]).colorAt? _ = (other.applyAll [move]).colorAt? _
  rw [colorAt?_applyAll_eq, colorAt?_applyAll_eq]
  -- the spot comes from one in the grid, where the cubes look the same
  have hsource : (Turnable.applyAll (Algorithm.inverse [move]) (Spot.mk position face)).position ∈
      Position.grid := Spot.position_applyAll_mem_grid _ hposition
  exact h _ hsource _

/-- The cubies of a cube refine a map from spots to colors. On a reachable cube a move carries the
color at every spot to the turned spot: the place of the spot is turned about the axis of the move, as
often as the move makes its quarter turn, if it lies in the layers of the move, and left alone
otherwise; and the new face is the one whose normal is the normal of the old face, turned likewise.
On any cubes, in whatever slots they store their cubies, what shows after a move depends only on what
shows before it; and no cubie outside the layers of the move is touched. -/
theorem move_carries_colors (move : Move) :
    (∀ cube : Cube, cube.Reachable → ∀ position ∈ Position.grid, ∀ face : Face,
      ∃ (before after : Cubie) (image : Face),
        cube.cubieAt? position = some before ∧
        (cube.apply move).cubieAt? (move.carry position position) = some after ∧
        image.normal = move.carry position face.normal ∧
        after.facelet image = before.facelet face) ∧
    (∀ cube other : Cube,
      (∀ position ∈ Position.grid, ∀ face,
        cube.colorAt? ⟨position, face⟩ = other.colorAt? ⟨position, face⟩) →
      ∀ position ∈ Position.grid, ∀ face,
        (cube.apply move).colorAt? ⟨position, face⟩ =
          (other.apply move).colorAt? ⟨position, face⟩) ∧
    ∀ (cube : Cube) (index : Fin 27), ¬ move.turn.selects (cube.slot index).position = true →
      (cube.apply move).slot index = cube.slot index := by
  refine ⟨?_, ?_, ?_⟩
  · intro cube hcube position hposition face
    exact hcube.exists_cubieAt?_apply move hposition face
  · intro cube other h position hposition face
    exact colorAt?_apply_congr h move hposition face
  · intro cube index h
    exact cube.slot_apply_of_not_selects h

/-- After `R U` the half turn `F2` brings the corner at the top right of its layer to the bottom left:
what showed on the right shows on the left. The colors come out the same if the cube is stored the
other way round, and the edge at the bottom left of the middle layer stays as it is. -/
theorem move_carries_colors_of_half_turn :
    let cube := solved.applyAll [⟨.R, .quarter⟩, ⟨.U, .quarter⟩]
    let other : Cube := ⟨cube.cubies.reverse, by rw [List.length_reverse, cube.length_cubies]⟩
    let move : Move := ⟨.F, .half⟩
    cube.Reachable ∧ (⟨1, 1, -1⟩ : Position) ∈ Position.grid ∧
    (∃ before after : Cubie, cube.cubieAt? ⟨1, 1, -1⟩ = some before ∧
      (cube.apply move).cubieAt? ⟨-1, -1, -1⟩ = some after ∧
      after.facelet .left = before.facelet .right) ∧
    (∀ position ∈ Position.grid, ∀ face,
      (cube.apply move).colorAt? ⟨position, face⟩ =
        (other.apply move).colorAt? ⟨position, face⟩) ∧
    ¬ move.turn.selects (cube.slot 1).position = true ∧
      (cube.apply move).slot 1 = cube.slot 1 := by
  intro cube other move
  have hcube : cube.Reachable := Reachable.solved.applyAll _
  have hposition : (⟨1, 1, -1⟩ : Position) ∈ Position.grid := by decide
  have hsame : ∀ position ∈ Position.grid, ∀ face ∈ Face.all,
      cube.colorAt? ⟨position, face⟩ = other.colorAt? ⟨position, face⟩ := by decide
  have hslot : ¬ move.turn.selects (cube.slot 1).position = true := by decide
  obtain ⟨hcarried, hcolors, huntouched⟩ := move_carries_colors move
  obtain ⟨before, after, image, hbefore, hafter, himage, hfacelet⟩ :=
    hcarried cube hcube ⟨1, 1, -1⟩ hposition .right
  -- the right face is turned to the left
  have hleft : image = .left := by
    cases image <;> first | rfl | exact absurd himage (by decide)
  rw [hleft] at hfacelet
  exact ⟨hcube, hposition, ⟨before, after, hbefore, hafter, hfacelet⟩,
    hcolors cube other fun position hgrid face => hsame position hgrid face (Face.mem_all face),
    hslot, huntouched cube 1 hslot⟩

end Cube

end LastLayer
