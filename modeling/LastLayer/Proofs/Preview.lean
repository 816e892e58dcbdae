import LastLayer.Proofs.Coaxial
import LastLayer.Proofs.Coloring
import Mathlib.Logic.Function.Iterate

/-!
# Previews under turns about the vertical axis

The pattern of a reachable cube only depends on which spots are lit, that is, show the top color
(`Pattern.ofCube_eq_ofLit`). A spot of the preview of an algorithm is lit just if the algorithm
carries it to the top face of the top layer (`Pattern.ofAlgorithm_eq_ofLit`).

So moves about the vertical axis act on the two ends of an algorithm in different ways. At its end
they only move spots about within the top face. At its beginning they move the spots of the diagram
before anything else happens, each by the turns of the top layer, and so they rotate the diagram.
-/

namespace LastLayer

open Turnable (applyAll spin)

/-- The letters that turn layers about the vertical axis. -/
def Letter.vertical : List Letter := [.U, .D, .E, .u, .d, .y]

theorem Letter.axis_of_mem_vertical {letter : Letter} (h : letter ∈ vertical) :
    letter.turn.axis = .y := by
  cases letter <;> first | rfl | exact absurd h (by decide)

/-- The quarter turns that an amount stands for, backwards ones counted negatively. -/
def Amount.turns : Amount → Int
  | .quarter => 1
  | .half => 2
  | .prime => -1

/-- The turns of the letters that turn the top layer about the vertical axis. -/
def Algorithm.topTurns (algorithm : Algorithm) : Int :=
  (algorithm.map fun move => if move.letter ∈ [.U, .u, .y] then move.amount.turns else 0).sum

theorem Algorithm.layerTurns_top {algorithm : Algorithm}
    (h : ∀ move ∈ algorithm, move.letter ∈ Letter.vertical) :
    algorithm.layerTurns 1 = algorithm.topTurns := by
  rw [layerTurns, topTurns]
  congr 1
  refine List.map_congr_left fun move hmove => ?_
  obtain ⟨letter, amount⟩ := move
  have hletter : letter ∈ Letter.vertical := h _ hmove
  -- the letters of the top layer all turn counterclockwise
  cases letter <;> first | exact absurd hletter (by decide) | (cases amount <;> decide)

namespace Pattern

/-! ## The pattern of a set of lit spots -/

/-- The positions of the top layer, in the order of the cells of the top face. -/
def topCells : Vector Position 9 :=
  #v[⟨-1, 1, -1⟩, ⟨0, 1, -1⟩, ⟨1, 1, -1⟩, ⟨-1, 1, 0⟩, ⟨0, 1, 0⟩, ⟨1, 1, 0⟩, ⟨-1, 1, 1⟩, ⟨0, 1, 1⟩,
    ⟨1, 1, 1⟩]

/-- The pattern of given lit spots. -/
def ofLit (lit : Spot → Bool) : Pattern where
  up := topCells.map fun position => lit ⟨position, .up⟩
  front := frontRow.map fun position => lit ⟨position, .front⟩
  right := rightRow.map fun position => lit ⟨position, .right⟩
  back := backRow.map fun position => lit ⟨position, .back⟩
  left := leftRow.map fun position => lit ⟨position, .left⟩

/-- Only spots of the top layer are looked at. -/
theorem ofLit_congr {lit lit' : Spot → Bool}
    (h : ∀ spot : Spot, spot.position.y = 1 → lit spot = lit' spot) : ofLit lit = ofLit lit' := by
  have hrow : ∀ {n : Nat} (row : Vector Position n) (face : Face),
      (∀ position ∈ row, position.y = 1) →
        (row.map fun position => lit ⟨position, face⟩) =
          row.map fun position => lit' ⟨position, face⟩ := by
    intro n row face hy
    exact Vector.map_congr_left fun position hposition => h _ (hy position hposition)
  rw [ofLit, ofLit, hrow topCells .up (by decide), hrow frontRow .front (by decide),
    hrow rightRow .right (by decide), hrow backRow .back (by decide),
    hrow leftRow .left (by decide)]

theorem topIndex_eq_iff : ∀ position ∈ Position.grid, position.y = 1 →
    ∀ i : Fin 9, topIndex position = i ↔ position = topCells[i] := by
  decide

theorem y_topCells : ∀ i : Fin 9, topCells[i].y = 1 := by decide

/-- Whether a cubie shows the top color on top. -/
def isTopColored (cubie : Cubie) : Bool :=
  cubie.facelet .up = some topColor

theorem getElem_markTop {cubie : Cubie} (hgrid : cubie.position ∈ Position.grid)
    (hfits : cubie.Fits) (cells : Vector Bool 9) (i : Fin 9) :
    (markTop cells cubie)[i] =
      if cubie.position = topCells[i] then isTopColored cubie else cells[i] := by
  have hup : (cubie.facelet .up).isSome = decide (cubie.position.y = 1) := hfits .up
  cases hfacelet : cubie.facelet .up with
  | none =>
    -- nothing shows on top, so the cubie is in no cell
    have hy : ¬ cubie.position.y = 1 := by simpa [hfacelet] using hup
    have hcell : cubie.position ≠ topCells[i] := fun h => hy (h ▸ y_topCells i)
    rw [if_neg hcell]
    simp only [markTop, hfacelet]
  | some color =>
    have hy : cubie.position.y = 1 := by simpa [hfacelet] using hup
    simp only [markTop, hfacelet, if_pos hy, isTopColored, Option.some_inj]
    rw [Fin.getElem_fin, Vector.getElem_setIfInBounds]
    simp only [topIndex_eq_iff _ hgrid hy i]
    rfl

/-- When all cubies have been marked, a cell tells about the cubie in it; a cell without a cubie is
as it was. -/
theorem getElem_foldl_markTop {cubies : List Cubie} (hnodup : (cubies.map Cubie.position).Nodup)
    (hgrid : ∀ cubie ∈ cubies, cubie.position ∈ Position.grid)
    (hfits : ∀ cubie ∈ cubies, cubie.Fits) (cells : Vector Bool 9) (i : Fin 9) :
    (cubies.foldl markTop cells)[i] =
      ((cubies.find? (·.position = topCells[i])).map isTopColored).getD cells[i] := by
  induction cubies generalizing cells with
  | nil => rfl
  | cons cubie cubies ih =>
    rw [List.map_cons, List.nodup_cons] at hnodup
    rw [List.foldl_cons, ih hnodup.2 (fun other hother => hgrid other (.tail cubie hother))
      (fun other hother => hfits other (.tail cubie hother)),
      getElem_markTop (hgrid cubie (.head cubies)) (hfits cubie (.head cubies)), List.find?_cons]
    by_cases hcell : cubie.position = topCells[i]
    · -- no later cubie is in this cell, so the mark stays
      have hnone : cubies.find? (·.position = topCells[i]) = none := by
        rw [List.find?_eq_none]
        intro other hother hsame
        refine hnodup.1 (List.mem_map.2 ⟨other, hother, ?_⟩)
        rw [of_decide_eq_true hsame, hcell]
      rw [if_pos hcell, hnone, decide_eq_true hcell]
      rfl
    · rw [if_neg hcell, decide_eq_false hcell]

/-- Whether a spot of a cube shows the top color. -/
def showsTop (cube : Cube) (spot : Spot) : Bool :=
  cube.colorAt? spot = some topColor

theorem ofCube_eq_ofLit {cube : Cube} (h : cube.Reachable) :
    ofCube cube = ofLit (showsTop cube) := by
  refine Pattern.ext ?_ rfl rfl rfl rfl
  refine Vector.ext fun i hi => ?_
  refine (getElem_foldl_markTop h.nodup_positions (fun _ => h.position_mem_grid)
    (fun _ => h.fits) _ ⟨i, hi⟩).trans ?_
  rw [ofLit, Vector.getElem_map]
  change ((cube.cubieAt? topCells[i]).map isTopColored).getD _ = showsTop cube ⟨topCells[i], .up⟩
  rw [showsTop, Cube.colorAt?]
  cases cube.cubieAt? topCells[i] with
  | none => simp
  | some cubie => rfl

/-! ## The lit spots of a preview -/

/-- The spots that show the top color on the solved cube. -/
def isTopSpot (spot : Spot) : Bool :=
  showsTop Cube.solved spot

/-- A spot of a preview is lit just if the algorithm carries it to the top. -/
theorem ofAlgorithm_eq_ofLit (algorithm : Algorithm) :
    ofAlgorithm algorithm = ofLit fun spot => isTopSpot (applyAll algorithm spot) := by
  rw [ofAlgorithm, ofCube_eq_ofLit (Cube.Reachable.solved.applyAll _)]
  congr 1
  funext spot
  rw [showsTop, Cube.colorAt?_applyAll_eq, Algorithm.inverse_inverse, isTopSpot, showsTop]

theorem isTopSpot_iff {spot : Spot} :
    isTopSpot spot = true ↔
      spot.position ∈ Position.grid ∧ spot.position.y = 1 ∧ spot.face = .up := by
  rw [isTopSpot, showsTop, decide_eq_true_iff, Cube.colorAt?_solved_eq_some_iff]
  refine and_congr_right fun _ => ?_
  constructor
  · rintro ⟨htouches, hcolor⟩
    have hface : spot.face = .up := Face.color_injective hcolor
    rw [hface] at htouches
    exact ⟨of_decide_eq_true htouches, hface⟩
  · rintro ⟨hy, hface⟩
    rw [hface]
    exact ⟨decide_eq_true hy, rfl⟩

/-- Turns about the vertical axis keep the spots of the top face on the top face. -/
theorem isTopSpot_turn {spot : Spot} (h : isTopSpot spot = true) (sense : Sense) :
    isTopSpot (spot.turn .y sense) = true := by
  obtain ⟨hgrid, hy, hface⟩ := isTopSpot_iff.1 h
  refine isTopSpot_iff.2 ⟨Position.rotate_mem_grid hgrid .y sense, ?_, ?_⟩
  · exact (Position.component_rotate spot.position .y sense).trans hy
  · change spot.face.turn .y sense = .up
    rw [hface]
    cases sense <;> rfl

theorem isTopSpot_spin (spot : Spot) : isTopSpot (spin .y spot) = isTopSpot spot := by
  rw [Bool.eq_iff_iff]
  constructor
  · intro h
    -- turn back
    have hback := isTopSpot_turn h .clockwise
    rwa [show (spin .y spot : Spot).turn .y .clockwise = spot from
      Turnable.turn_turn_reverse spot .y .counterclockwise] at hback
  · intro h
    exact isTopSpot_turn h .counterclockwise

/-! ## Rotating the diagram -/

/-- For each cell of the top face, the cell whose mark it takes when the diagram rotates. -/
def turnedCells : Vector (Fin 9) 9 := #v[6, 3, 0, 7, 4, 1, 8, 5, 2]

/-- The rotated diagram, as it is seen when the whole cube has been turned by `y`: the front face
takes the cells of the right face, and so on round the cube. -/
def rotated (pattern : Pattern) : Pattern where
  up := turnedCells.map fun i => pattern.up[i]
  front := pattern.right
  right := pattern.back
  back := pattern.left
  left := pattern.front

/-- If a spot is lit whenever the spot that it turns to was, the diagram rotates. -/
theorem ofLit_spin (lit : Spot → Bool) :
    ofLit (fun spot => lit (spin .y spot)) = (ofLit lit).rotated := by
  -- each side row turns into the next one, cell by cell from the left
  have hrow : ∀ {row next : Vector Position 3} {face face' : Face},
      (∀ i : Fin 3, row[i].rotate .y .counterclockwise = next[i]) →
        face.turn .y .counterclockwise = face' →
          (row.map fun position => lit (spin .y ⟨position, face⟩)) =
            next.map fun position => lit ⟨position, face'⟩ := by
    rintro row next face _ hcells rfl
    refine Vector.ext fun i hi => ?_
    rw [Vector.getElem_map, Vector.getElem_map]
    exact congrArg (fun position => lit ⟨position, _⟩) (hcells ⟨i, hi⟩)
  have htop : ∀ i : Fin 9,
      topCells[i].rotate .y .counterclockwise = topCells[turnedCells[i]] := by decide
  refine Pattern.ext (Vector.ext fun i hi => ?_) (hrow (by decide) rfl) (hrow (by decide) rfl)
    (hrow (by decide) rfl) (hrow (by decide) rfl)
  rw [ofLit, rotated, ofLit, Vector.getElem_map, Vector.getElem_map, Fin.getElem_fin,
    Vector.getElem_map]
  exact congrArg (fun position => lit ⟨position, .up⟩) (htop ⟨i, hi⟩)

theorem ofLit_spin_pow (lit : Spot → Bool) (n : Nat) :
    ofLit (fun spot => lit ((spin .y ^ n) spot)) = rotated^[n] (ofLit lit) := by
  induction n with
  | zero => rfl
  | succ n ih =>
    rw [Function.iterate_succ_apply', ← ih, ← ofLit_spin]
    rfl

/-! ## Moves about the vertical axis at both ends -/

/-- Behind an algorithm they change nothing: the spots that they carry to the top come from there. -/
theorem ofAlgorithm_append_vertical (algorithm : Algorithm) {last : Algorithm}
    (hlast : ∀ move ∈ last, move.letter ∈ Letter.vertical) :
    ofAlgorithm (algorithm ++ last) = ofAlgorithm algorithm := by
  have haxis : ∀ move ∈ last, move.letter.turn.axis = .y := fun move hmove =>
    Letter.axis_of_mem_vertical (hlast move hmove)
  rw [ofAlgorithm_eq_ofLit, ofAlgorithm_eq_ofLit]
  refine ofLit_congr fun spot _ => ?_
  rw [Turnable.applyAll_append, Turnable.applyAll_eq_spin_zpow haxis]
  exact Turnable.apply_spin_zpow isTopSpot isTopSpot_spin _ _

/-- In front of an algorithm they rotate the diagram, by the turns of the top layer. -/
theorem ofAlgorithm_vertical_append {first : Algorithm} (algorithm : Algorithm)
    (hfirst : ∀ move ∈ first, move.letter ∈ Letter.vertical) :
    ofAlgorithm (first ++ algorithm) =
      rotated^[(first.topTurns % 4).toNat] (ofAlgorithm algorithm) := by
  have haxis : ∀ move ∈ first, move.letter.turn.axis = .y := fun move hmove =>
    Letter.axis_of_mem_vertical (hfirst move hmove)
  rw [ofAlgorithm_eq_ofLit algorithm, ← ofLit_spin_pow, ofAlgorithm_eq_ofLit]
  refine ofLit_congr fun spot hy => ?_
  have hlayer : (Turnable.position spot).component .y = 1 := hy
  rw [Turnable.applyAll_append, Turnable.applyAll_eq_spin_zpow haxis, hlayer,
    Algorithm.layerTurns_top hfirst, Turnable.spin_zpow]

/-- Moves about the vertical axis in front of an algorithm rotate its preview as often as they turn
the top layer, and behind it they change nothing. So turns of the top layer at the end, and turns of
the layers below at the beginning, do not show, and conjugating with `y` rotates the diagram. -/
theorem ofAlgorithm_between_vertical (algorithm : Algorithm) :
    (∀ first last : Algorithm, (∀ move ∈ first, move.letter ∈ Letter.vertical) →
      (∀ move ∈ last, move.letter ∈ Letter.vertical) →
        ofAlgorithm (first ++ algorithm ++ last) =
          rotated^[(first.topTurns % 4).toNat] (ofAlgorithm algorithm)) ∧
    (∀ amount, ofAlgorithm (algorithm ++ [⟨.U, amount⟩]) = ofAlgorithm algorithm ∧
      ofAlgorithm (algorithm ++ [⟨.y, amount⟩]) = ofAlgorithm algorithm) ∧
    (∀ first : Algorithm, (∀ move ∈ first, move.letter = .D ∨ move.letter = .E) →
      ofAlgorithm (first ++ algorithm) = ofAlgorithm algorithm) ∧
    ofAlgorithm (⟨.y, .quarter⟩ :: algorithm ++ [⟨.y, .prime⟩]) =
      (ofAlgorithm algorithm).rotated := by
  refine ⟨?_, ?_, ?_, ?_⟩
  · intro first last hfirst hlast
    rw [ofAlgorithm_append_vertical _ hlast, ofAlgorithm_vertical_append algorithm hfirst]
  · intro amount
    exact ⟨ofAlgorithm_append_vertical algorithm (by simp [Letter.vertical]),
      ofAlgorithm_append_vertical algorithm (by simp [Letter.vertical])⟩
  · intro first hfirst
    have hvertical : ∀ move ∈ first, move.letter ∈ Letter.vertical := by
      intro move hmove
      rcases hfirst move hmove with hletter | hletter <;> rw [hletter] <;> decide
    -- none of the letters turns the top layer
    have hturns : first.topTurns = 0 := by
      refine List.sum_eq_zero fun turns hturns => ?_
      obtain ⟨move, hmove, rfl⟩ := List.mem_map.1 hturns
      rcases hfirst move hmove with hletter | hletter <;> rw [hletter] <;> rfl
    rw [ofAlgorithm_vertical_append algorithm hvertical, hturns]
    rfl
  · have hrotation : ∀ move ∈ ([⟨.y, .quarter⟩] : Algorithm), move.letter ∈ Letter.vertical := by
      decide
    rw [ofAlgorithm_append_vertical _ (by decide)]
    exact ofAlgorithm_vertical_append algorithm hrotation

/-- Before `R U R' U'` the turns `y' D U2` come to one turn of the top layer, and what comes after it
does not show. -/
theorem ofAlgorithm_between_vertical_turns :
    let first : Algorithm := [⟨.y, .prime⟩, ⟨.D, .quarter⟩, ⟨.U, .half⟩]
    let algorithm : Algorithm := [⟨.R, .quarter⟩, ⟨.U, .quarter⟩, ⟨.R, .prime⟩, ⟨.U, .prime⟩]
    let last : Algorithm := [⟨.d, .half⟩, ⟨.E, .prime⟩]
    (∀ move ∈ first, move.letter ∈ Letter.vertical) ∧
    (∀ move ∈ last, move.letter ∈ Letter.vertical) ∧ first.topTurns % 4 = 1 ∧
      ofAlgorithm (first ++ algorithm ++ last) = (ofAlgorithm algorithm).rotated := by
  intro first algorithm last
  have hfirst : ∀ move ∈ first, move.letter ∈ Letter.vertical := by decide
  have hlast : ∀ move ∈ last, move.letter ∈ Letter.vertical := by decide
  have hturns : first.topTurns % 4 = 1 := by decide
  refine ⟨hfirst, hlast, hturns, ?_⟩
  rw [(ofAlgorithm_between_vertical algorithm).1 first last hfirst hlast, hturns]
  rfl

end Pattern

end LastLayer
