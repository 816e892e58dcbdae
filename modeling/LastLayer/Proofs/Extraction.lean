import LastLayer.Diagram
import LastLayer.Proofs.Display
import LastLayer.Proofs.Preview

/-!
# What a pattern tells about a cube

The 21 cells of a pattern belong to the 21 stickers of the top layer, one to each (`Pattern.spots`,
`Pattern.mem_spots`). On a reachable cube each cell tells whether its sticker has the top color: the
cells of the top face are marked by the cubies, each of which finds its own cell, and the cells of the
side faces look their cubies up.

No cubie shows a color twice, so no two lit cells belong to one cubie
(`Cube.Reachable.spot_eq_of_colorAt?`), and the lit cells tell which cubies of the top layer have the
top color at all (`Pattern.map_position_litSpots_perm`).
-/

namespace LastLayer

/-! ## Colors and faces -/

/-- If no color shows twice, the face is told by the color on it. -/
theorem Facelets.face_eq_of_get_eq_some {facelets : Facelets} (h : facelets.colors.Nodup)
    {face other : Face} {color : Color} (hface : facelets.get face = some color)
    (hother : facelets.get other = some color) : face = other := by
  have hsame := List.inj_on_of_nodup_map h (mem_toList.2 hface) (mem_toList.2 hother) rfl
  exact (Prod.mk.inj hsame).1

namespace Cube

theorem colorAt?_of_cubieAt? {cube : Cube} {position : Position} {cubie : Cubie}
    (h : cube.cubieAt? position = some cubie) (face : Face) :
    cube.colorAt? ⟨position, face⟩ = cubie.facelet face := by
  rw [colorAt?, h, Option.bind_some]

theorem exists_of_colorAt? {cube : Cube} {spot : Spot} {color : Color}
    (h : cube.colorAt? spot = some color) :
    ∃ cubie ∈ cube.cubies, cubie.position = spot.position ∧ cubie.facelet spot.face = some color := by
  obtain ⟨cubie, hcubie, hfacelet⟩ := Option.bind_eq_some_iff.1 h
  exact ⟨cubie, List.mem_of_find?_eq_some hcubie, position_of_cubieAt? hcubie, hfacelet⟩

/-- No color shows twice at one position of a reachable cube. -/
theorem Reachable.spot_eq_of_colorAt? {cube : Cube} (h : cube.Reachable) {first second : Spot}
    {color : Color} (hposition : first.position = second.position)
    (hfirst : cube.colorAt? first = some color) (hsecond : cube.colorAt? second = some color) :
    first = second := by
  -- the one cubie at that position shows the color on both faces
  obtain ⟨cubie, hcubie, hcell, hshown⟩ := exists_of_colorAt? hfirst
  have hfound : cube.cubieAt? second.position = some cubie := by
    rw [← hposition, ← hcell, h.cubieAt?_position hcubie]
  have hshown' : cubie.facelet second.face = some color := by
    rw [← colorAt?_of_cubieAt? hfound, hsecond]
  exact Spot.ext hposition
    (Facelets.face_eq_of_get_eq_some (h.nodup_colors hcubie) hshown hshown')

end Cube

namespace Pattern

/-! ## Cells -/

/-- The spots that the cells of a pattern tell about, in the order of `Pattern.cells`. -/
def spots : List Spot :=
  topCells.toList.map (Spot.mk · .up) ++ (frontRow.toList.map (Spot.mk · .front) ++
    (rightRow.toList.map (Spot.mk · .right) ++ (backRow.toList.map (Spot.mk · .back) ++
      leftRow.toList.map (Spot.mk · .left))))

/-- The marks of all cells, face by face. -/
def marks (pattern : Pattern) : List Bool :=
  pattern.cells.flatMap (·.2)

/-- The spots whose cells are lit. -/
def litSpots (pattern : Pattern) : List Spot :=
  ((spots.zip pattern.marks).filter (·.2)).map (·.1)

/-- Whether a cubie is in the top layer and has the top color, on whatever face. -/
def bearsTop (cubie : Cubie) : Bool :=
  cubie.position.y = 1 && Color.yellow ∈ cubie.facelets.colors

theorem bearsTop_iff {cubie : Cubie} :
    bearsTop cubie = true ↔ cubie.position.y = 1 ∧ ∃ face, cubie.facelet face = some .yellow := by
  rw [bearsTop, Bool.and_eq_true, decide_eq_true_iff, decide_eq_true_iff, Facelets.mem_colors]
  exact Iff.rfl

theorem nodup_spots : spots.Nodup := by decide

/-- Every sticker of the top layer has a cell. -/
theorem mem_spots {spot : Spot} :
    spot ∈ spots ↔ spot.position ∈ Position.grid ∧ spot.position.y = 1 ∧
      spot.position.touches spot.face = true := by
  have hsound : ∀ spot ∈ spots, spot.position ∈ Position.grid ∧ spot.position.y = 1 ∧
      spot.position.touches spot.face = true := by decide
  have hcomplete : ∀ position ∈ Position.grid, ∀ face ∈ Face.all, position.y = 1 →
      position.touches face = true → Spot.mk position face ∈ spots := by decide
  constructor
  · exact hsound spot
  · rintro ⟨hgrid, hy, htouches⟩
    exact hcomplete spot.position hgrid spot.face (Face.mem_all spot.face) hy htouches

theorem marks_ofLit (lit : Spot → Bool) : (ofLit lit).marks = spots.map lit := by
  simp [marks, cells, spots, ofLit, Vector.toList_map, Function.comp_def]

/-- The lit spots of the pattern of given lit spots are those of its cells that are lit. -/
theorem litSpots_ofLit (lit : Spot → Bool) : (ofLit lit).litSpots = spots.filter lit := by
  rw [litSpots, marks_ofLit]
  induction spots with
  | nil => rfl
  | cons spot spots ih =>
    rw [List.map_cons, List.zip_cons_cons, List.filter_cons, List.filter_cons, ← ih]
    cases lit spot <;> rfl

/-! ## The top face -/

/-- The number of a top cell is computed within its range, so that nothing is cut off. -/
theorem topIndex_eq {position : Position} (hgrid : position ∈ Position.grid)
    (hy : position.y = 1) :
    (0 ≤ position.z + 1 ∧ position.z + 1 ≤ 2) ∧ (0 ≤ position.x + 1 ∧ position.x + 1 ≤ 2) ∧
      (topIndex position : Int) = (position.z + 1) * 3 + (position.x + 1) ∧
      topIndex position < 9 := by
  revert position
  decide

section

variable {cube : Cube} (h : cube.Reachable)

theorem showsTop_iff {position : Position} {cubie : Cubie}
    (hcubie : cube.cubieAt? position = some cubie) (face : Face) :
    showsTop cube ⟨position, face⟩ = true ↔ cubie.facelet face = some .yellow := by
  rw [showsTop, decide_eq_true_iff, Cube.colorAt?_of_cubieAt? hcubie]
  exact Iff.rfl

include h

/-- Each cell of the top face is marked by one cubie. -/
theorem countP_topIndex (i : Fin 9) :
    cube.cubies.countP (fun cubie => cubie.position.y = 1 && (cubie.facelet .up).isSome &&
      topIndex cubie.position = i) = 1 := by
  have hcell : topCells[i] ∈ Position.grid := by
    revert i
    decide
  -- exactly one cubie is where the cell belongs: it is enough that the numbers tell positions apart
  rw [← h.countP_position_eq_one hcell]
  refine List.countP_congr fun cubie hcubie => ?_
  have hup : (cubie.facelet .up).isSome = decide (cubie.position.y = 1) := h.fits hcubie .up
  have hgrid := h.position_mem_grid hcubie
  rw [hup, Bool.and_self, Bool.and_eq_true, decide_eq_true_iff, decide_eq_true_iff,
    decide_eq_true_iff]
  constructor
  · rintro ⟨hy, hindex⟩
    exact (topIndex_eq_iff _ hgrid hy i).1 hindex
  · intro hposition
    have hy : cubie.position.y = 1 := hposition ▸ y_topCells i
    exact ⟨hy, (topIndex_eq_iff _ hgrid hy i).2 hposition⟩

/-- The cell of the top face above a position tells about the cubie there. -/
theorem exists_cubieAt?_up {position : Position} (hgrid : position ∈ Position.grid)
    (hy : position.y = 1) :
    ∃ (i : Fin 9) (cubie : Cubie), (i : Int) = (position.z + 1) * 3 + (position.x + 1) ∧
      cube.cubieAt? position = some cubie ∧
      ((ofCube cube).up.get i = true ↔ cubie.facelet .up = some .yellow) := by
  obtain ⟨-, -, hindex, hlt⟩ := topIndex_eq hgrid hy
  obtain ⟨cubie, hcubie⟩ := h.exists_cubieAt? hgrid
  have hcell : position = topCells[topIndex position] :=
    (topIndex_eq_iff position hgrid hy ⟨topIndex position, hlt⟩).1 rfl
  refine ⟨⟨topIndex position, hlt⟩, cubie, hindex, hcubie, ?_⟩
  -- all marks together make the face that looks up its cells like the side faces do
  have hmark : (ofCube cube).up[topIndex position] = showsTop cube ⟨position, .up⟩ := by
    conv => rhs; rw [hcell]
    rw [ofCube_eq_ofLit h]
    exact Vector.getElem_map _ hlt
  change (ofCube cube).up[topIndex position] = true ↔ _
  rw [hmark]
  exact showsTop_iff hcubie .up

/-! ## The side faces -/

/-- A cell of a side face tells about the cubie at its place in the row. -/
theorem exists_cubieAt?_row (row : Vector Position 3)
    (hrow : ∀ i : Fin 3, row.get i ∈ Position.grid) (face : Face) (i : Fin 3) :
    ∃ cubie, cube.cubieAt? (row.get i) = some cubie ∧
      ((row.map (isLit cube face)).get i = true ↔ cubie.facelet face = some .yellow) := by
  obtain ⟨cubie, hcubie⟩ := h.exists_cubieAt? (hrow i)
  have hmark : (row.map (isLit cube face)).get i = isLit cube face (row.get i) :=
    Vector.getElem_map _ i.isLt
  refine ⟨cubie, hcubie, ?_⟩
  rw [hmark]
  exact showsTop_iff hcubie face

/-! ## Lit cells and cubies -/

theorem count_true_marks : (ofCube cube).marks.count true = (ofCube cube).litSpots.length := by
  rw [ofCube_eq_ofLit h, litSpots_ofLit, marks_ofLit, ← List.countP_eq_length_filter, List.count,
    List.countP_map]
  congr 1
  funext spot
  simp

theorem mem_litSpots {spot : Spot} :
    spot ∈ (ofCube cube).litSpots ↔
      spot.position.y = 1 ∧ cube.colorAt? spot = some .yellow := by
  rw [ofCube_eq_ofLit h, litSpots_ofLit, List.mem_filter, mem_spots, showsTop, decide_eq_true_iff]
  constructor
  · rintro ⟨⟨-, hy, -⟩, hcolor⟩
    exact ⟨hy, hcolor⟩
  · rintro ⟨hy, hcolor⟩
    -- a color shows where there is a cubie, on a face in whose layer it lies
    obtain ⟨cubie, hcubie, hposition, hfacelet⟩ := Cube.exists_of_colorAt? hcolor
    have htouches : spot.position.touches spot.face = true := by
      rw [← hposition, ← h.fits hcubie spot.face, hfacelet, Option.isSome_some]
    exact ⟨⟨hposition ▸ h.position_mem_grid hcubie, hy, htouches⟩, hcolor⟩

/-- No two lit cells belong to one cubie. -/
theorem nodup_position_litSpots : ((ofCube cube).litSpots.map Spot.position).Nodup := by
  have hnodup : (ofCube cube).litSpots.Nodup := by
    rw [ofCube_eq_ofLit h, litSpots_ofLit]
    exact nodup_spots.filter _
  refine hnodup.map_on fun first hfirst second hsecond hposition => ?_
  exact h.spot_eq_of_colorAt? hposition ((mem_litSpots h).1 hfirst).2 ((mem_litSpots h).1 hsecond).2

/-- The lit cells belong to the cubies of the top layer that have the top color. -/
theorem map_position_litSpots_perm :
    ((ofCube cube).litSpots.map Spot.position).Perm
      ((cube.cubies.filter bearsTop).map Cubie.position) := by
  have hcubies : ((cube.cubies.filter bearsTop).map Cubie.position).Nodup :=
    h.nodup_positions.sublist (List.filter_sublist.map Cubie.position)
  -- no position stands twice in either list, so they only need the same members
  refine (List.perm_ext_iff_of_nodup (nodup_position_litSpots h) hcubies).2 fun position => ?_
  rw [List.mem_map, List.mem_map]
  constructor
  · rintro ⟨spot, hspot, rfl⟩
    obtain ⟨hy, hcolor⟩ := (mem_litSpots h).1 hspot
    obtain ⟨cubie, hcubie, hposition, hfacelet⟩ := Cube.exists_of_colorAt? hcolor
    have hbears : bearsTop cubie = true := by
      rw [bearsTop_iff, hposition]
      exact ⟨hy, spot.face, hfacelet⟩
    exact ⟨cubie, List.mem_filter.2 ⟨hcubie, hbears⟩, hposition⟩
  · rintro ⟨cubie, hcubie, rfl⟩
    obtain ⟨hmem, hbears⟩ := List.mem_filter.1 hcubie
    obtain ⟨hy, face, hfacelet⟩ := bearsTop_iff.1 hbears
    refine ⟨⟨cubie.position, face⟩, (mem_litSpots h).2 ⟨hy, ?_⟩, rfl⟩
    rw [Cube.colorAt?_of_cubieAt? (h.cubieAt?_position hmem), hfacelet]

theorem count_true_marks_eq : (ofCube cube).marks.count true = cube.cubies.countP bearsTop := by
  rw [count_true_marks h, ← List.length_map, (map_position_litSpots_perm h).length_eq,
    List.length_map, List.countP_eq_length_filter]

/-- There are nine cubies in the top layer. -/
theorem countP_bearsTop_le : cube.cubies.countP bearsTop ≤ 9 := by
  have hlayer : cube.cubies.countP (fun cubie => cubie.position.y = 1) = 9 := by
    rw [h.countP_position fun position => position.y = 1]
    decide
  rw [← hlayer]
  refine List.countP_mono_left fun cubie _ hbears => ?_
  exact decide_eq_true (bearsTop_iff.1 hbears).1

end

/-- The pattern of a reachable cube tells of each sticker of the top layer once whether it has the top
color. The cell of the top face above a position tells about the cubie there, and each of these cells is
marked by one cubie of the top layer, whose number lies within the range. The cells of the side faces
tell about the cubies of their rows. At most one of the cells that belong to a cubie is lit, and as
many cells are lit as there are cubies in the top layer with the top color; so there are at most nine.
-/
theorem extraction_reads_each_sticker_once {cube : Cube} (h : cube.Reachable) :
    let pattern := ofCube cube
    (∀ x ∈ Position.layers, ∀ z ∈ Position.layers, ∃ (i : Fin 9) (cubie : Cubie),
      (i : Int) = (z + 1) * 3 + (x + 1) ∧ cube.cubieAt? ⟨x, 1, z⟩ = some cubie ∧
      (pattern.up.get i = true ↔ cubie.facelet .up = some .yellow)) ∧
    ((∀ i : Fin 9, cube.cubies.countP (fun cubie => cubie.position.y = 1 &&
        (cubie.facelet .up).isSome && topIndex cubie.position = i) = 1) ∧
      ∀ cubie ∈ cube.cubies, cubie.position.y = 1 →
        let position := cubie.position
        (0 ≤ position.z + 1 ∧ position.z + 1 ≤ 2) ∧ (0 ≤ position.x + 1 ∧ position.x + 1 ≤ 2) ∧
        (topIndex position : Int) = (position.z + 1) * 3 + (position.x + 1) ∧
        topIndex position < 9) ∧
    (∀ side ∈ [(Face.front, frontRow, pattern.front), (.right, rightRow, pattern.right),
        (.back, backRow, pattern.back), (.left, leftRow, pattern.left)],
      ∀ i : Fin 3, ∃ cubie, cube.cubieAt? (side.2.1.get i) = some cubie ∧
        (side.2.2.get i = true ↔ cubie.facelet side.1 = some .yellow)) ∧
    (spots.Nodup ∧ (∀ spot : Spot, spot ∈ spots ↔ spot.position ∈ Position.grid ∧
        spot.position.y = 1 ∧ spot.position.touches spot.face = true) ∧
      ∀ position ∈ Position.grid, position.y = 1 →
        pattern.litSpots.countP (fun spot => spot.position = position) ≤ 1) ∧
    pattern.marks.count true = cube.cubies.countP bearsTop ∧ pattern.marks.count true ≤ 9 := by
  intro pattern
  -- left are the cells of the top face, the range of their numbers, the rows, and single lit cells
  refine ⟨?_, ⟨countP_topIndex h, ?_⟩, ?_, ⟨nodup_spots, fun _ => mem_spots, ?_⟩,
    count_true_marks_eq h, (count_true_marks_eq h).trans_le (countP_bearsTop_le h)⟩
  · intro x hx z hz
    have htop : (1 : Int) ∈ Position.layers := by decide
    have hgrid : (⟨x, 1, z⟩ : Position) ∈ Position.grid := Position.mem_grid.2 ⟨hx, htop, hz⟩
    exact exists_cubieAt?_up h hgrid rfl
  · intro cubie hcubie hy
    exact topIndex_eq (h.position_mem_grid hcubie) hy
  · intro side hside i
    simp only [List.mem_cons, List.not_mem_nil, or_false] at hside
    rcases hside with rfl | rfl | rfl | rfl
    · exact exists_cubieAt?_row h frontRow (by decide) .front i
    · exact exists_cubieAt?_row h rightRow (by decide) .right i
    · exact exists_cubieAt?_row h backRow (by decide) .back i
    · exact exists_cubieAt?_row h leftRow (by decide) .left i
  · intro position _ _
    have hcount := List.nodup_iff_count_le_one.1 (nodup_position_litSpots h) position
    rw [List.count, List.countP_map] at hcount
    exact hcount

/-- After `R F'` five cubies of the top layer have the top color: four show it on top, and the corner
at the front right in front. -/
theorem extraction_reads_each_sticker_once_after_two_moves :
    let cube := Cube.solved.applyAll [⟨.R, .quarter⟩, ⟨.F, .prime⟩]
    cube.Reachable ∧ cube.cubies.countP bearsTop = 5 ∧ (ofCube cube).marks.count true = 5 ∧
      (ofCube cube).litSpots.countP (fun spot => spot.position = ⟨1, 1, 1⟩) ≤ 1 := by
  intro cube
  have hcube : cube.Reachable := Cube.Reachable.solved.applyAll _
  have hbears : cube.cubies.countP bearsTop = 5 := by decide
  obtain ⟨-, -, -, ⟨-, -, hsingle⟩, hcount, -⟩ := extraction_reads_each_sticker_once hcube
  exact ⟨hcube, hbears, hcount.trans hbears, hsingle ⟨1, 1, 1⟩ (by decide) rfl⟩

end Pattern

end LastLayer
