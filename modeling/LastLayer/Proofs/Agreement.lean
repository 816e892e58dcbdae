import LastLayer.Proofs.Structure
import LastLayer.Pattern

/-!
# Algorithms that agree on the solved cube

The solved cube tells all stickers that move apart. If two algorithms make the same of it, they
carry every spot with a sticker to the same spot (`Spot.applyAll_eq_of_solved`), so they make the
same of every cubie that fits its position (`Cubie.applyAll_eq_of_solved`) and of every reachable
cube (`Cube.applyAll_eq_of_solved`). So agreement on the solved cube is agreement everywhere, for
the algorithms, for their inverses and for their patterns.

The agreement of cubes only compares cubies at equal positions, in one direction. On reachable cubes
that is enough: cubes that agree are equal, slot for slot (`Cube.eq_of_agreesWith`).
-/

namespace LastLayer

open Turnable (applyAll)

/-! ## What the solved cube tells apart -/

/-- A layer is determined by whether it is one of the two outer ones. -/
theorem Position.layer_eq {first second : Int} (hfirst : first ∈ layers) (hsecond : second ∈ layers)
    (hpos : first = 1 ↔ second = 1) (hneg : first = -1 ↔ second = -1) : first = second := by
  simp only [layers, List.mem_cons, List.not_mem_nil, or_false] at hfirst hsecond
  omega

/-- A position of the grid is determined by the layers of faces it lies in. -/
theorem Position.eq_of_touches {first second : Position} (hfirst : first ∈ grid)
    (hsecond : second ∈ grid) (h : ∀ face, first.touches face = second.touches face) :
    first = second := by
  obtain ⟨hx, hy, hz⟩ := mem_grid.1 hfirst
  obtain ⟨hx', hy', hz'⟩ := mem_grid.1 hsecond
  simp only [touches, decide_eq_decide] at h
  -- each pair of opposite faces settles one coordinate
  apply Position.ext
  · exact layer_eq hx hx' (h .right) (h .left)
  · exact layer_eq hy hy' (h .up) (h .down)
  · exact layer_eq hz hz' (h .front) (h .back)

namespace Cubie

theorem color_mem_colors_solved {position : Position} {face : Face} :
    face.color ∈ (solved position).facelets.colors ↔ position.touches face = true := by
  rw [Facelets.mem_colors]
  constructor
  · rintro ⟨other, hother⟩
    change (solved position).facelet other = some face.color at hother
    rw [facelet_solved, Option.ite_none_right_eq_some] at hother
    rw [← Face.color_injective (Option.some.inj hother.2)]
    exact hother.1
  · intro h
    exact ⟨face, by rw [← facelet, facelet_solved, if_pos h]⟩

/-- No two cubies of the solved cube have the same colors. -/
theorem position_eq_of_colors_perm {first second : Position} (hfirst : first ∈ Position.grid)
    (hsecond : second ∈ Position.grid)
    (h : (solved first).facelets.colors.Perm (solved second).facelets.colors) :
    first = second := by
  apply Position.eq_of_touches hfirst hsecond
  intro face
  -- a solved cubie touches the faces whose colors it has
  rw [Bool.eq_iff_iff, ← color_mem_colors_solved, ← color_mem_colors_solved]
  exact h.mem_iff

end Cubie

/-! ## One cubie under two algorithms -/

variable {first second : Algorithm}

/-- Algorithms that make the same of a cubie carry its position to the same place. -/
theorem Cubie.position_applyAll_congr {cubie : Cubie}
    (h : applyAll first cubie = applyAll second cubie) :
    applyAll first cubie.position = applyAll second cubie.position := by
  rw [← position_applyAll, h, position_applyAll]

/-- If two algorithms make the same of a solved cubie, they carry its stickers to the same spots. -/
theorem Spot.applyAll_eq_of_solved {position : Position}
    (h : applyAll first (Cubie.solved position) = applyAll second (Cubie.solved position))
    {face : Face} (hface : position.touches face = true) :
    applyAll first (Spot.mk position face) = applyAll second (Spot.mk position face) := by
  have hposition : applyAll first position = applyAll second position :=
    Cubie.position_applyAll_congr h
  -- trace the image under `second` back to the face that `first` carries there
  obtain ⟨source, hsource⟩ :=
    exists_applyAll_eq first position (applyAll second (Spot.mk position face)).face
  have hspot : applyAll first (Spot.mk position source) = applyAll second (Spot.mk position face) := by
    rw [hsource]
    refine Spot.ext ?_ rfl
    rw [position_applyAll]
    exact hposition
  -- both faces show the same color on the solved cubie
  have hcolor : (Cubie.solved position).facelet source = (Cubie.solved position).facelet face := by
    have hfirst := Cubie.facelet_applyAll first (Cubie.solved position) source
    have hsecond := Cubie.facelet_applyAll second (Cubie.solved position) face
    rw [← hfirst, ← hsecond, h]
    exact congrArg (fun spot : Spot => (applyAll second (Cubie.solved position)).facelet spot.face)
      hspot
  rw [Cubie.facelet_solved, Cubie.facelet_solved, if_pos hface,
    Option.ite_none_right_eq_some] at hcolor
  rwa [Face.color_injective (Option.some.inj hcolor.2)] at hspot

/-- If two algorithms make the same of a solved cubie, they make the same of every cubie that fits
its position there. -/
theorem Cubie.applyAll_eq_of_solved {cubie : Cubie} (hfits : cubie.Fits)
    (h : applyAll first (solved cubie.position) = applyAll second (solved cubie.position)) :
    applyAll first cubie = applyAll second cubie := by
  have hposition : (applyAll first cubie).position = (applyAll second cubie).position := by
    have hmoved := position_applyAll_congr h
    rw [position_applyAll, position_applyAll]
    exact hmoved
  refine Cubie.ext hposition (Facelets.ext_get fun image => ?_)
  change (applyAll first cubie).facelet image = (applyAll second cubie).facelet image
  -- what `first` shows at `image` comes from one face of the cubie
  obtain ⟨face, hface⟩ := Spot.exists_applyAll_eq first cubie.position image
  have hfirst : (applyAll first cubie).facelet image = cubie.facelet face := by
    rw [← facelet_applyAll first cubie face, hface]
  by_cases htouches : cubie.position.touches face = true
  · -- a sticker: both algorithms carry it to the same spot
    rw [hfirst, ← facelet_applyAll second cubie face, ← Spot.applyAll_eq_of_solved h htouches, hface]
  · -- no sticker: both cubies fit their common position, so neither shows anything
    have hnone : ((applyAll first cubie).facelet image).isSome = false := by
      rw [hfirst, hfits face]
      exact Bool.eq_false_iff.2 htouches
    have hnone' : ((applyAll second cubie).facelet image).isSome = false := by
      rw [hfits.applyAll second image, ← hposition, ← hfits.applyAll first image, hnone]
    rw [Option.isSome_eq_false_iff, Option.isNone_iff_eq_none] at hnone hnone'
    rw [hnone, hnone']

/-! ## Cubes -/

namespace Cube

variable {cube other : Cube}

theorem position_of_cubieAt? {position : Position} {cubie : Cubie}
    (h : cube.cubieAt? position = some cubie) : cubie.position = position := by
  simpa using List.find?_some h

namespace Reachable

/-- A reachable cube has one cubie at each position, so looking a cubie up by its position finds
it. -/
theorem cubieAt?_position (h : cube.Reachable) {cubie : Cubie} (hcubie : cubie ∈ cube.cubies) :
    cube.cubieAt? cubie.position = some cubie := by
  cases hfound : cube.cubieAt? cubie.position with
  | none =>
    have hmissing := List.find?_eq_none.1 hfound cubie hcubie
    exact absurd (decide_eq_true rfl) hmissing
  | some found =>
    have hposition : found.position = cubie.position := position_of_cubieAt? hfound
    have hmem : found ∈ cube.cubies := List.mem_of_find?_eq_some hfound
    rw [List.inj_on_of_nodup_map h.nodup_positions hmem hcubie hposition]

theorem exists_cubieAt? (h : cube.Reachable) {position : Position}
    (hposition : position ∈ Position.grid) : ∃ cubie, cube.cubieAt? position = some cubie := by
  obtain ⟨cubie, hcubie, rfl⟩ := List.mem_map.1 (h.positions_perm.mem_iff.2 hposition)
  exact ⟨cubie, h.cubieAt?_position hcubie⟩

theorem agreesWith_self (h : cube.Reachable) : cube.agreesWith cube = true := by
  refine List.all_eq_true.2 fun cubie hcubie => ?_
  exact decide_eq_true (h.cubieAt?_position hcubie)

/-- Two slots of reachable cubes that hold the same cubie are the same slot. -/
theorem index_eq_of_slot_eq (h : cube.Reachable) (hother : other.Reachable) {index index' : Fin 27}
    (hslot : cube.slot index = other.slot index') : index = index' := by
  -- the slots have the same colors, and so they had on the solved cube
  have hcolors : (Cube.solved.slot index).facelets.colors.Perm
      (Cube.solved.slot index').facelets.colors := by
    refine (h.colors_slot_perm index).symm.trans ?_
    rw [hslot]
    exact hother.colors_slot_perm index'
  rw [slot_solved, slot_solved] at hcolors
  have hposition := Cubie.position_eq_of_colors_perm (List.get_mem _ _) (List.get_mem _ _) hcolors
  have hindex := Position.nodup_grid.injective_get hposition
  exact Fin.ext (congrArg Fin.val hindex)

end Reachable

/-- Reachable cubes that agree are equal, slot for slot. -/
theorem eq_of_agreesWith (h : cube.Reachable) (hother : other.Reachable)
    (hagrees : cube.agreesWith other = true) : cube = other := by
  apply ext_slot
  intro index
  have hfound : other.cubieAt? (cube.slot index).position = some (cube.slot index) :=
    of_decide_eq_true (List.all_eq_true.1 hagrees _ (cube.slot_mem_cubies index))
  -- the cubie sits in some slot of the other cube, and its colors tell which
  obtain ⟨index', hindex'⟩ := exists_slot_eq (List.mem_of_find?_eq_some hfound)
  obtain rfl := h.index_eq_of_slot_eq hother hindex'.symm
  exact hindex'.symm

/-- Algorithms that make the same of the solved cube make the same of each of its cubies. -/
theorem cubie_applyAll_eq_of_solved (h : solved.applyAll first = solved.applyAll second)
    {position : Position} (hposition : position ∈ Position.grid) :
    Turnable.applyAll first (Cubie.solved position) =
      Turnable.applyAll second (Cubie.solved position) := by
  have hcubies := congrArg Cube.cubies h
  rw [cubies_applyAll_eq_map, cubies_applyAll_eq_map, solved, List.map_map, List.map_map] at hcubies
  exact List.map_inj_left.1 hcubies _ hposition

/-- Algorithms that make the same of the solved cube make the same of every reachable cube. -/
theorem applyAll_eq_of_solved
    (h : solved.applyAll first = solved.applyAll second) (hcube : cube.Reachable) :
    cube.applyAll first = cube.applyAll second := by
  apply ext_slot
  intro index
  rw [slot_applyAll, slot_applyAll]
  -- the cubie is at a position of the grid, where the solved cube has a cubie to compare with
  have hmem : cube.slot index ∈ cube.cubies := cube.slot_mem_cubies index
  have hgrid : (cube.slot index).position ∈ Position.grid := hcube.position_mem_grid hmem
  exact Cubie.applyAll_eq_of_solved (hcube.fits hmem) (cubie_applyAll_eq_of_solved h hgrid)

/-- The inverses of algorithms that make the same of the solved cube make the same of every
reachable cube. -/
theorem applyAll_inverse_eq_of_solved
    (h : solved.applyAll first = solved.applyAll second) (hcube : cube.Reachable) :
    cube.applyAll first.inverse = cube.applyAll second.inverse := by
  have hback : (cube.applyAll second.inverse).Reachable := hcube.applyAll second.inverse
  -- undo `second`, redo it as `first`, and undo it again
  calc cube.applyAll first.inverse
      = ((cube.applyAll second.inverse).applyAll second).applyAll first.inverse := by
        rw [applyAll_applyAll_inverse]
    _ = ((cube.applyAll second.inverse).applyAll first).applyAll first.inverse := by
        rw [applyAll_eq_of_solved h hback]
    _ = cube.applyAll second.inverse := applyAll_inverse _ first

/-- Equal algorithms lead the solved cube to cubes that agree. Whenever two algorithms lead it to
cubes that agree, they do so from every reachable cube, their inverses do so too, and both have the
same pattern. -/
theorem agreement_spreads (first second : Algorithm) :
    (first = second → (solved.applyAll first).agreesWith (solved.applyAll second) = true) ∧
    ((solved.applyAll first).agreesWith (solved.applyAll second) = true →
      (∀ cube : Cube, cube.Reachable →
        (cube.applyAll first).agreesWith (cube.applyAll second) = true) ∧
      (∀ cube : Cube, cube.Reachable →
        (cube.applyAll first.inverse).agreesWith (cube.applyAll second.inverse) = true) ∧
      Pattern.ofAlgorithm first = Pattern.ofAlgorithm second) := by
  constructor
  · rintro rfl
    exact (Reachable.solved.applyAll first).agreesWith_self
  · intro hagrees
    -- agreement is a comparison by position; on reachable cubes it is equality
    have h : solved.applyAll first = solved.applyAll second :=
      eq_of_agreesWith (Reachable.solved.applyAll first) (Reachable.solved.applyAll second) hagrees
    refine ⟨?_, ?_, ?_⟩
    · intro cube hcube
      rw [applyAll_eq_of_solved h hcube]
      exact (hcube.applyAll second).agreesWith_self
    · intro cube hcube
      rw [applyAll_inverse_eq_of_solved h hcube]
      exact (hcube.applyAll second.inverse).agreesWith_self
    · rw [Pattern.ofAlgorithm, Pattern.ofAlgorithm, applyAll_inverse_eq_of_solved h .solved]

/-- A wide turn is a turn of the outer face together with the slice next to it, on every cube. -/
theorem agreement_of_wide_turn :
    (solved.applyAll [⟨.r, .quarter⟩]).agreesWith
        (solved.applyAll [⟨.R, .quarter⟩, ⟨.M, .prime⟩]) = true ∧
    (∀ cube : Cube, cube.Reachable → (cube.applyAll [⟨.r, .quarter⟩]).agreesWith
        (cube.applyAll [⟨.R, .quarter⟩, ⟨.M, .prime⟩]) = true) ∧
    (∀ cube : Cube, cube.Reachable → (cube.applyAll (Algorithm.inverse [⟨.r, .quarter⟩])).agreesWith
        (cube.applyAll (Algorithm.inverse [⟨.R, .quarter⟩, ⟨.M, .prime⟩])) = true) ∧
    Pattern.ofAlgorithm [⟨.r, .quarter⟩] = Pattern.ofAlgorithm [⟨.R, .quarter⟩, ⟨.M, .prime⟩] := by
  -- the middle slice turns with the left face, hence the prime
  have hagrees : (solved.applyAll [⟨.r, .quarter⟩]).agreesWith
      (solved.applyAll [⟨.R, .quarter⟩, ⟨.M, .prime⟩]) = true := by decide +kernel
  exact ⟨hagrees, (agreement_spreads [⟨.r, .quarter⟩] [⟨.R, .quarter⟩, ⟨.M, .prime⟩]).2 hagrees⟩

end Cube

end LastLayer
