import LastLayer.Proofs.Reachable
import Mathlib.Data.List.Basic
import Mathlib.Data.List.Nodup
import Mathlib.Data.List.Perm.Subperm

/-!
# What moves keep of a cube

Three things stay true while a cube is turned. The positions of the 27 cubies are a permutation of
the grid (`Cube.Reachable.positions_perm`); every cubie fits its position, that is, it shows colors
on just those faces in whose layer it lies (`Cube.Reachable.fits`); and the cubie in a slot keeps
its colors (`Cube.Reachable.colors_slot_perm`).

The counts that `Cube.faceCountsValid` and its companions check are no invariants by themselves.
They follow from the three: stickers are counted over the positions, hence over the grid, and colors
are counted over the slots, hence over the solved cube. The last statement puts all of it together.
-/

namespace LastLayer

open Turnable (applyAll)

/-! ## The grid -/

namespace Position

theorem mem_grid {position : Position} :
    position ∈ grid ↔ position.x ∈ layers ∧ position.y ∈ layers ∧ position.z ∈ layers := by
  constructor
  · intro h
    simp only [grid, List.mem_flatMap, List.mem_map] at h
    obtain ⟨x, hx, y, hy, z, hz, rfl⟩ := h
    exact ⟨hx, hy, hz⟩
  · rintro ⟨hx, hy, hz⟩
    simp only [grid, List.mem_flatMap, List.mem_map]
    exact ⟨position.x, hx, position.y, hy, position.z, hz, rfl⟩

theorem component_mem_layers {position : Position} (h : position ∈ grid) (axis : Axis) :
    position.component axis ∈ layers := by
  obtain ⟨hx, hy, hz⟩ := mem_grid.1 h
  cases axis with
  | x => exact hx
  | y => exact hy
  | z => exact hz

theorem nodup_grid : grid.Nodup := by decide

theorem neg_mem_layers {amount : Int} (h : amount ∈ layers) : -amount ∈ layers := by
  simp only [layers, List.mem_cons, List.not_mem_nil, or_false] at h ⊢
  omega

theorem rotate_mem_grid {position : Position} (h : position ∈ grid) (axis : Axis)
    (sense : Sense) : position.rotate axis sense ∈ grid := by
  obtain ⟨hx, hy, hz⟩ := mem_grid.1 h
  cases axis <;> cases sense <;> simp [rotate, mem_grid, hx, hy, hz, neg_mem_layers]

theorem applyAll_mem_grid (algorithm : Algorithm) {position : Position} (h : position ∈ grid) :
    applyAll algorithm position ∈ grid :=
  Turnable.invariant_applyAll (· ∈ grid)
    (fun _ axis sense hposition => rotate_mem_grid hposition axis sense) algorithm h

/-- An algorithm permutes every set of positions that turns do not leave. -/
theorem map_applyAll_perm {places : List Position} (hnodup : places.Nodup)
    (hrotate : ∀ position ∈ places, ∀ axis sense, position.rotate axis sense ∈ places)
    (algorithm : Algorithm) : (places.map (applyAll algorithm)).Perm places := by
  -- an algorithm is injective and stays in the set, which leaves no position out
  have himage : (places.map (applyAll algorithm)).Nodup :=
    hnodup.map fun _ _ h => Turnable.applyAll_injective algorithm h
  have hsubset : places.map (applyAll algorithm) ⊆ places := by
    intro position hposition
    obtain ⟨source, hsource, rfl⟩ := List.mem_map.1 hposition
    exact Turnable.invariant_applyAll (· ∈ places)
      (fun place axis sense hplace => hrotate place hplace axis sense) algorithm hsource
  exact (List.subperm_of_subset himage hsubset).perm_of_length_le
    (Nat.le_of_eq (List.length_map (applyAll algorithm)).symm)

/-- An algorithm permutes the grid. -/
theorem map_applyAll_grid_perm (algorithm : Algorithm) :
    (grid.map (applyAll algorithm)).Perm grid :=
  map_applyAll_perm nodup_grid (fun _ h => rotate_mem_grid h) algorithm

/-- How high a position is above the centre, towards a face. -/
def height (position : Position) (face : Face) : Int :=
  face.side * position.component face.axis

theorem height_rotate (position : Position) (axis : Axis) (sense : Sense) (face : Face) :
    (position.rotate axis sense).height (face.turn axis sense) = position.height face := by
  cases axis <;> cases sense <;> cases face <;>
    simp only [height, rotate, component, Face.turn, Face.quarter, Face.axis, Face.side] <;> omega

/-- The layer of a face is the one at height one. -/
theorem touches_iff_height {position : Position} {face : Face} :
    position.touches face = true ↔ position.height face = 1 := by
  rw [touches, decide_eq_true_iff, height]
  cases face <;> simp only [Face.side] <;> omega

/-- A turn carries the layer of a face to the layer of the turned face. -/
theorem touches_rotate (position : Position) (axis : Axis) (sense : Sense) (face : Face) :
    (position.rotate axis sense).touches (face.turn axis sense) = position.touches face := by
  rw [Bool.eq_iff_iff, touches_iff_height, touches_iff_height, height_rotate]

/-- How many faces a position is exposed on: three for a corner, two for an edge, one for a centre
and none for the core. -/
def exposure (position : Position) : Nat :=
  Face.all.countP position.touches

end Position

namespace Spot

theorem position_applyAll_mem_grid (algorithm : Algorithm) {spot : Spot}
    (h : spot.position ∈ Position.grid) : (applyAll algorithm spot).position ∈ Position.grid := by
  rw [position_applyAll]
  exact Position.applyAll_mem_grid algorithm h

/-- Stickers are carried to stickers. -/
theorem touches_applyAll (algorithm : Algorithm) (spot : Spot) :
    (applyAll algorithm spot).position.touches (applyAll algorithm spot).face =
      spot.position.touches spot.face :=
  Turnable.invariant_applyAll
    (fun moved : Spot => moved.position.touches moved.face = spot.position.touches spot.face)
    (fun moved axis sense h => (moved.position.touches_rotate axis sense moved.face).trans h)
    algorithm rfl

end Spot

theorem Face.color_injective {first second : Face} (h : first.color = second.color) :
    first = second := by
  cases first <;> cases second <;> first | rfl | cases h

/-- The only component of a normal that is not zero is the one along the axis of the face. -/
theorem Face.component_normal (face : Face) (axis : Axis) :
    face.normal.component axis = if axis = face.axis then face.side else 0 := by
  cases face <;> cases axis <;> rfl

/-! ## Cubies -/

namespace Facelets

theorem colors_eq_filterMap (facelets : Facelets) :
    facelets.colors = Face.all.filterMap facelets.get := by
  simp [colors, toList, sticker?, List.map_filterMap, Function.comp_def]

theorem mem_colors {facelets : Facelets} {color : Color} :
    color ∈ facelets.colors ↔ ∃ face, facelets.get face = some color := by
  simp [colors_eq_filterMap, List.mem_filterMap, Face.mem_all]

theorem map_turn_all_perm (axis : Axis) (sense : Sense) :
    (Face.all.map (Face.turn axis sense)).Perm Face.all := by
  cases axis <;> cases sense <;> decide

/-- A turn keeps the colors and only moves them to other faces. -/
theorem colors_turn_perm (facelets : Facelets) (axis : Axis) (sense : Sense) :
    (facelets.turn axis sense).colors.Perm facelets.colors := by
  -- read the turned facelets in the order in which the faces come from the old ones
  have hturned : (facelets.turn axis sense).colors =
      (Face.all.map (Face.turn axis sense.reverse)).filterMap facelets.get := by
    rw [colors_eq_filterMap, List.filterMap_map]
    congr 1
    funext face
    exact get_turn_eq facelets axis sense face
  rw [hturned, colors_eq_filterMap]
  exact (map_turn_all_perm axis sense.reverse).filterMap facelets.get

end Facelets

namespace Cubie

/-- A cubie fits its position if it shows a color on just those faces in whose layer it lies. -/
def Fits (cubie : Cubie) : Prop :=
  ∀ face, (cubie.facelet face).isSome = cubie.position.touches face

theorem facelet_solved (position : Position) (face : Face) :
    (solved position).facelet face = if position.touches face then some face.color else none :=
  Facelets.get_ofFaces _ face

theorem fits_solved (position : Position) : (solved position).Fits := by
  intro face
  rw [facelet_solved]
  change _ = position.touches face
  cases position.touches face <;> rfl

theorem Fits.turn {cubie : Cubie} (h : cubie.Fits) (axis : Axis) (sense : Sense) :
    (cubie.turn axis sense).Fits := by
  intro face
  -- every face is the image of one
  obtain ⟨source, rfl⟩ : ∃ source : Face, source.turn axis sense = face :=
    ⟨face.turn axis sense.reverse, Face.turn_reverse_turn axis sense face⟩
  rw [facelet_turn, h source]
  exact (cubie.position.touches_rotate axis sense source).symm

theorem Fits.applyAll {cubie : Cubie} (h : cubie.Fits) (algorithm : Algorithm) :
    (applyAll algorithm cubie).Fits :=
  Turnable.invariant_applyAll Fits (fun _ axis sense hfits => hfits.turn axis sense) algorithm h

theorem colors_applyAll_perm (algorithm : Algorithm) (cubie : Cubie) :
    (applyAll algorithm cubie).facelets.colors.Perm cubie.facelets.colors :=
  Turnable.invariant_applyAll (fun moved : Cubie => moved.facelets.colors.Perm cubie.facelets.colors)
    (fun moved axis sense hcolors => (moved.facelets.colors_turn_perm axis sense).trans hcolors)
    algorithm (List.Perm.refl _)

/-- A solved cubie shows no color twice, wherever it is. -/
theorem nodup_colors_solved (position : Position) : (solved position).facelets.colors.Nodup := by
  rw [Facelets.colors_eq_filterMap]
  refine List.Nodup.filterMap ?_ (by decide)
  intro first second color hfirst hsecond
  -- both faces show the color, so both are the face of that color
  have hcolor : ∀ face, color ∈ (solved position).facelet face → face.color = color := by
    intro face hface
    rw [facelet_solved, Option.mem_def, Option.ite_none_right_eq_some] at hface
    exact Option.some.inj hface.2
  exact Face.color_injective ((hcolor first hfirst).trans (hcolor second hsecond).symm)

theorem nodup_colors_applyAll_solved (algorithm : Algorithm) (position : Position) :
    (applyAll algorithm (solved position)).facelets.colors.Nodup :=
  (colors_applyAll_perm algorithm (solved position)).nodup_iff.2 (nodup_colors_solved position)

/-- A cubie that fits its position has as many colors as the position is exposed on faces. -/
theorem Fits.length_colors {cubie : Cubie} (h : cubie.Fits) :
    cubie.facelets.colors.length = cubie.position.exposure := by
  rw [Facelets.colors_eq_filterMap, List.length_filterMap_eq_countP, Position.exposure]
  congr 1
  funext face
  exact h face

/-- A turn of a cubie drops none of its stickers: the turned normal of a sticker's face is the
normal of a face, and that face shows the color of the sticker afterwards. -/
theorem exists_face_turn (cubie : Cubie) (axis : Axis) (sense : Sense) {sticker : Face × Color}
    (h : sticker ∈ cubie.facelets.toList) :
    ∃ face, Face.ofNormal? (sticker.1.normal.rotate axis sense) = some face ∧
      (cubie.turn axis sense).facelet face = some sticker.2 := by
  refine ⟨sticker.1.turn axis sense, Face.ofNormal?_rotate_normal axis sense sticker.1, ?_⟩
  obtain ⟨source, -, hsource⟩ := List.mem_filterMap.1 h
  obtain ⟨color, hcolor, rfl⟩ := Option.map_eq_some_iff.1 hsource
  exact (facelet_turn cubie axis sense source).trans hcolor

end Cubie

/-! ## Cubes -/

namespace Cube

/-- The solved cube has its slots in the order of the grid. -/
theorem slot_solved (index : Fin 27) :
    solved.slot index = Cubie.solved (Position.grid.get (index.cast Position.length_grid.symm)) :=
  List.getElem_map Cubie.solved

namespace Reachable

variable {cube : Cube} (h : cube.Reachable)

include h

/-- The cubies of a reachable cube are the solved ones, all moved by one algorithm. -/
theorem exists_cubies_eq :
    ∃ algorithm, cube.cubies = Position.grid.map (Turnable.applyAll algorithm ∘ Cubie.solved) := by
  obtain ⟨algorithm, rfl⟩ := reachable_iff.1 h
  exact ⟨algorithm, by rw [cubies_applyAll_eq_map, Cube.solved, List.map_map]⟩

/-- The positions of the cubies are a permutation of the grid. -/
theorem positions_perm : (cube.cubies.map Cubie.position).Perm Position.grid := by
  obtain ⟨algorithm, hcubies⟩ := h.exists_cubies_eq
  have hpositions : cube.cubies.map Cubie.position = Position.grid.map (Turnable.applyAll algorithm) := by
    rw [hcubies, List.map_map]
    congr 1
    funext position
    exact Cubie.position_applyAll algorithm (Cubie.solved position)
  rw [hpositions]
  exact Position.map_applyAll_grid_perm algorithm

theorem nodup_positions : (cube.cubies.map Cubie.position).Nodup :=
  h.positions_perm.nodup_iff.2 Position.nodup_grid

theorem position_mem_grid {cubie : Cubie} (hcubie : cubie ∈ cube.cubies) :
    cubie.position ∈ Position.grid :=
  h.positions_perm.mem_iff.1 (List.mem_map_of_mem hcubie)

/-- Counting cubies by where they are is counting the grid. -/
theorem countP_position (condition : Position → Bool) :
    cube.cubies.countP (fun cubie => condition cubie.position) =
      Position.grid.countP condition := by
  rw [← h.positions_perm.countP_eq, List.countP_map]
  rfl

/-- Every cubie fits its position. -/
theorem fits {cubie : Cubie} (hcubie : cubie ∈ cube.cubies) : cubie.Fits := by
  obtain ⟨algorithm, hcubies⟩ := h.exists_cubies_eq
  rw [hcubies] at hcubie
  obtain ⟨position, -, rfl⟩ := List.mem_map.1 hcubie
  exact (Cubie.fits_solved position).applyAll algorithm

/-- The cubie in a slot has the colors that it had on the solved cube. -/
theorem colors_slot_perm (index : Fin 27) :
    (cube.slot index).facelets.colors.Perm (Cube.solved.slot index).facelets.colors := by
  obtain ⟨algorithm, rfl⟩ := reachable_iff.1 h
  rw [slot_applyAll]
  exact Cubie.colors_applyAll_perm algorithm (Cube.solved.slot index)

theorem nodup_colors {cubie : Cubie} (hcubie : cubie ∈ cube.cubies) :
    cubie.facelets.colors.Nodup := by
  obtain ⟨algorithm, hcubies⟩ := h.exists_cubies_eq
  rw [hcubies] at hcubie
  obtain ⟨position, -, rfl⟩ := List.mem_map.1 hcubie
  exact Cubie.nodup_colors_applyAll_solved algorithm position

/-- The position of a slot's cubie is exposed on as many faces as it was on the solved cube. -/
theorem exposure_slot (index : Fin 27) :
    (cube.slot index).position.exposure = (Cube.solved.slot index).position.exposure := by
  -- a cubie that fits has one color for each exposed face, and it keeps its colors
  rw [← (h.fits (cube.slot_mem_cubies index)).length_colors,
    ← (Reachable.solved.fits (Cube.solved.slot_mem_cubies index)).length_colors]
  exact (h.colors_slot_perm index).length_eq

/-- Each position of the grid holds exactly one cubie. -/
theorem countP_position_eq_one {position : Position} (hposition : position ∈ Position.grid) :
    cube.cubies.countP (fun cubie => cubie.position = position) = 1 := by
  rw [h.countP_position fun other => other = position]
  exact List.count_eq_one_of_mem Position.nodup_grid hposition

/-- Cubies show a color on a face just if they lie in its layer. -/
theorem countP_isSome_facelet (face : Face) :
    cube.cubies.countP (fun cubie => (cubie.facelet face).isSome) =
      Position.grid.countP fun position => position.touches face := by
  rw [← h.countP_position fun position => position.touches face]
  apply List.countP_congr
  intro cubie hcubie
  rw [h.fits hcubie face]

theorem faceCountsValid : cube.faceCountsValid = true := by
  refine List.all_eq_true.2 fun face _ => ?_
  -- nine positions of the grid lie in the layer of a face
  rw [h.countP_isSome_facelet face]
  cases face <;> decide

theorem topStickerCount : cube.topStickerCount = 9 := by
  have htop : cube.topStickerCount =
      cube.cubies.countP (fun cubie => (cubie.facelet .up).isSome) := by
    apply List.countP_congr
    intro cubie hcubie
    -- a cubie with a color on top is in the top layer
    rw [h.fits hcubie .up]
    change (decide (cubie.position.y = 1) && decide (cubie.position.y = 1)) = true ↔
      decide (cubie.position.y = 1) = true
    rw [Bool.and_self]
  rw [htop, h.countP_isSome_facelet]
  decide

theorem colorCountsValid : cube.colorCountsValid = true := by
  obtain ⟨algorithm, hcubies⟩ := h.exists_cubies_eq
  -- slot by slot the colors are those of the solved cube
  have hcolors : (cube.cubies.flatMap (·.facelets.colors)).Perm
      (Position.grid.flatMap fun position => (Cubie.solved position).facelets.colors) := by
    rw [hcubies, List.flatMap_map]
    exact List.Perm.flatMap_left _ fun position _ =>
      Cubie.colors_applyAll_perm algorithm (Cubie.solved position)
  refine List.all_eq_true.2 fun color _ => ?_
  rw [hcolors.count_eq]
  -- what is left to count is the solved cube
  cases color <;> decide

theorem cubiesValid : cube.cubiesValid = true :=
  List.all_eq_true.2 fun _ hcubie => decide_eq_true (h.nodup_colors hcubie)

end Reachable

/-- The structure of a cube is kept by every run of moves: each position of the grid holds exactly
one cubie; every cubie shows a color on just those faces that are exposed at its position, and is
exposed on as many faces as on the solved cube; the cubie in each slot has the colors it had on the
solved cube, none of them twice; hence all checks of the counts succeed. No turn of a cubie drops a
sticker. -/
theorem structure_kept (moves : Algorithm) :
    let cube := solved.applyAll moves
    ((cube.cubies.map Cubie.position).Perm Position.grid ∧
      ∀ position ∈ Position.grid,
        cube.cubies.countP (fun cubie => cubie.position = position) = 1) ∧
    (∀ index, (∀ face, ((cube.slot index).facelet face).isSome = true ↔
        (cube.slot index).position.component face.axis = face.normal.component face.axis) ∧
      (cube.slot index).position.exposure = (solved.slot index).position.exposure) ∧
    (∀ index, (cube.slot index).facelets.colors.Perm (solved.slot index).facelets.colors ∧
      (cube.slot index).facelets.colors.Nodup) ∧
    (cube.faceCountsValid = true ∧ cube.colorCountsValid = true ∧ cube.cubiesValid = true ∧
      cube.topStickerCount = 9) ∧
    ∀ (cubie : Cubie) (axis : Axis) (sense : Sense), ∀ sticker ∈ cubie.facelets.toList,
      ∃ face, Face.ofNormal? (sticker.1.normal.rotate axis sense) = some face ∧
        (cubie.turn axis sense).facelet face = some sticker.2 := by
  intro cube
  have h : cube.Reachable := Reachable.solved.applyAll moves
  refine ⟨⟨h.positions_perm, ?_⟩, ?_, ?_, ⟨h.faceCountsValid, h.colorCountsValid, h.cubiesValid,
    h.topStickerCount⟩, ?_⟩
  · intro position hposition
    exact h.countP_position_eq_one hposition
  · intro index
    refine ⟨fun face => ?_, h.exposure_slot index⟩
    rw [h.fits (cube.slot_mem_cubies index) face, Face.component_normal, if_pos rfl]
    exact decide_eq_true_iff
  · intro index
    exact ⟨h.colors_slot_perm index, h.nodup_colors (cube.slot_mem_cubies index)⟩
  · intro cubie axis sense sticker hsticker
    exact cubie.exists_face_turn axis sense hsticker

end Cube

end LastLayer
