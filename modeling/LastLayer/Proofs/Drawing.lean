import LastLayer.Proofs.Extraction

/-!
# What a drawing shows

The drawing of a pattern is a text of five lines of five characters
(`Pattern.textLines_diagram`), and every sticker of the top layer has a character in it
(`Pattern.charAt?_diagram_eq_iff`). The top face is seen from above, and around it the cells of a
side face run from left to right for someone who looks at that face (`Pattern.drawnAt`).

For the front and the left face this is the order of the cells of the top face next to them. For the
back and the right face it is the opposite order, so of a corner cubie at the back the cell on its
back and the cell on its top are drawn at opposite ends of their lines. With this in mind, no cubie
is lit twice (`Pattern.diagram_lights_cubies_once`).
-/

namespace LastLayer.Pattern

/-! ## Lines and columns -/

/-- The lines of a text. -/
def textLines (text : String) : List (List Char) :=
  text.toList.splitOn '\n'

/-- The character of a text in a line and a column, both counted from zero. -/
def charAt? (text : String) (line column : Nat) : Option Char :=
  (textLines text)[line]?.bind (·[column]?)

/-- Where the cell of a sticker of the top layer is drawn: its line and its column. -/
def drawnAt (spot : Spot) : Nat × Nat :=
  let ⟨x, _, z⟩ := spot.position
  match spot.face with
  | .up => ((z + 2).toNat, (x + 2).toNat)
  | .front => (4, (x + 2).toNat)
  | .right => ((2 - z).toNat, 4)
  | .back => (0, (2 - x).toNat)
  | .left => ((z + 2).toNat, 0)
  -- below the drawing
  | .down => (5, 0)

theorem mark_eq_iff {lit : Bool} : mark lit = '#' ↔ lit = true := by
  cases lit <;> decide

theorem toList_row (cells : List Bool) : (row cells).toList = cells.map mark :=
  String.toList_ofList

theorem newline_notMem_row (cells : List Bool) : '\n' ∉ (row cells).toList := by
  rw [toList_row, List.mem_map]
  rintro ⟨lit, -, hmark⟩
  cases lit <;> exact absurd hmark (by decide)

theorem newline_notMem_lines {pattern : Pattern} {line : String} (h : line ∈ pattern.lines) :
    '\n' ∉ line.toList := by
  -- a row between two blanks, or a row alone
  have hframed : ∀ cells, '\n' ∉ (" " ++ row cells ++ " ").toList := by
    intro cells
    rw [String.toList_append, String.toList_append, List.mem_append, List.mem_append]
    rintro ((hblank | hrow) | hblank)
    · exact absurd hblank (by decide)
    · exact newline_notMem_row cells hrow
    · exact absurd hblank (by decide)
  simp only [lines, List.mem_cons, List.not_mem_nil, or_false] at h
  rcases h with rfl | rfl | rfl | rfl | rfl
  · exact hframed _
  · exact newline_notMem_row _
  · exact newline_notMem_row _
  · exact newline_notMem_row _
  · exact hframed _

/-- A drawing is read line by line as it is written. -/
theorem textLines_diagram (pattern : Pattern) :
    textLines pattern.diagram = pattern.lines.map String.toList := by
  rw [textLines, diagram, String.toList_intercalate]
  refine List.splitOn_intercalate '\n' ?_ (List.cons_ne_nil _ _)
  intro characters h
  obtain ⟨line, hline, rfl⟩ := List.mem_map.1 h
  exact newline_notMem_lines hline

theorem length_textLines_diagram (pattern : Pattern) : (textLines pattern.diagram).length = 5 := by
  rw [textLines_diagram, List.length_map]
  rfl

theorem length_of_mem_textLines_diagram {pattern : Pattern} {line : List Char}
    (h : line ∈ textLines pattern.diagram) : line.length = 5 := by
  rw [textLines_diagram] at h
  simp only [lines, middleLine, List.map_cons, List.map_nil, String.toList_append, toList_row,
    List.mem_cons, List.not_mem_nil, or_false] at h
  rcases h with rfl | rfl | rfl | rfl | rfl <;> simp

/-! ## Cells -/

/-- A drawing shows the mark of each sticker where it belongs. -/
theorem charAt?_diagram_ofLit (lit : Spot → Bool) {spot : Spot} (h : spot ∈ spots) :
    charAt? (ofLit lit).diagram (drawnAt spot).1 (drawnAt spot).2 = some (mark (lit spot)) := by
  have hall : spots.map (fun spot =>
        charAt? (ofLit lit).diagram (drawnAt spot).1 (drawnAt spot).2) =
      spots.map fun spot => some (mark (lit spot)) := by
    have hblank : " ".toList = [' '] := by decide
    simp only [charAt?, textLines_diagram, lines, middleLine, List.map_cons, List.map_nil,
      String.toList_append, toList_row, hblank, ofLit, Vector.toList_map, Fin.getElem_fin,
      Vector.getElem_map]
    rfl
  exact List.map_inj_left.1 hall spot h

section

variable {cube : Cube} (h : cube.Reachable)

include h

/-- A number sign stands where a sticker has the top color. -/
theorem charAt?_diagram_eq_iff {spot : Spot} (hspot : spot ∈ spots) :
    charAt? (ofCube cube).diagram (drawnAt spot).1 (drawnAt spot).2 = some '#' ↔
      cube.colorAt? spot = some topColor := by
  rw [ofCube_eq_ofLit h, charAt?_diagram_ofLit _ hspot, Option.some_inj, mark_eq_iff, showsTop,
    decide_eq_true_iff]

/-- Of two stickers of one cubie, one at most is drawn as lit. -/
theorem not_both_drawn {first second : Spot} (hfirst : first ∈ spots) (hsecond : second ∈ spots)
    (hposition : first.position = second.position) (hne : first ≠ second) :
    ¬ (charAt? (ofCube cube).diagram (drawnAt first).1 (drawnAt first).2 = some '#' ∧
      charAt? (ofCube cube).diagram (drawnAt second).1 (drawnAt second).2 = some '#') := by
  rw [charAt?_diagram_eq_iff h hfirst, charAt?_diagram_eq_iff h hsecond]
  rintro ⟨hshown, hshown'⟩
  exact hne (h.spot_eq_of_colorAt? hposition hshown hshown')

end

/-- The places in a drawing of a side cell and of the top cell of the same cubie, on each of the
four sides, for a number from one to three. The numbers of the cells at the back and on the right
run against those of the top cells. -/
def cubieCells (j : Nat) : List ((Nat × Nat) × (Nat × Nat)) :=
  [((4, j), (3, j)), ((j, 0), (j, 1)), ((0, j), (1, 4 - j)), ((j, 4), (4 - j, 3))]

theorem exists_spot_of_mem_cubieCells : ∀ j ∈ [1, 2, 3], ∀ cells ∈ cubieCells j,
    ∃ side ∈ spots, Spot.mk side.position .up ∈ spots ∧ side.face ≠ .up ∧
      drawnAt side = cells.1 ∧ drawnAt ⟨side.position, .up⟩ = cells.2 := by
  decide

/-- The drawing of the pattern of an algorithm has five lines of five characters, and no cubie is
lit in it on the top and on a side. At the front and on the left these cells are next to each other.
The cells at the back and on the right are drawn in the opposite order to the top cells along
them. -/
theorem diagram_lights_cubies_once (algorithm : Algorithm) :
    let text := (ofAlgorithm algorithm).diagram
    let lit (line column : Nat) : Prop := charAt? text line column = some '#'
    ((textLines text).length = 5 ∧ ∀ line ∈ textLines text, line.length = 5) ∧
    ∀ j ∈ [1, 2, 3],
      ¬ (lit 4 j ∧ lit 3 j) ∧ ¬ (lit j 0 ∧ lit j 1) ∧
      ¬ (lit 0 j ∧ lit 1 (4 - j)) ∧ ¬ (lit j 4 ∧ lit (4 - j) 3) := by
  intro text lit
  have hcube : (Cube.solved.applyAll algorithm.inverse).Reachable :=
    Cube.Reachable.solved.applyAll _
  have hpair : ∀ j ∈ [1, 2, 3], ∀ cells ∈ cubieCells j,
      ¬ (lit cells.1.1 cells.1.2 ∧ lit cells.2.1 cells.2.2) := by
    intro j hj cells hcells
    obtain ⟨side, hside, htop, hface, hdrawn, hdrawn'⟩ :=
      exists_spot_of_mem_cubieCells j hj cells hcells
    rw [← hdrawn, ← hdrawn']
    exact not_both_drawn hcube hside htop rfl fun hsame => hface (congrArg Spot.face hsame)
  refine ⟨?_, fun j hj => ?_⟩
  · exact ⟨length_textLines_diagram _, fun _ => length_of_mem_textLines_diagram⟩
  · have hcells := hpair j hj
    simp only [cubieCells, List.forall_mem_cons] at hcells
    exact ⟨hcells.1, hcells.2.1, hcells.2.2.1, hcells.2.2.2.1⟩

/-- The algorithm `R U R' U R U2 R'`. -/
def sune : Algorithm :=
  [⟨.R, .quarter⟩, ⟨.U, .quarter⟩, ⟨.R, .prime⟩, ⟨.U, .quarter⟩, ⟨.R, .quarter⟩, ⟨.U, .half⟩,
    ⟨.R, .prime⟩]

/-- Before the algorithm the corner at the back right is lit at the back, where it is drawn on the
left, and so its top cell on the right is not. -/
theorem diagram_lights_cubies_once_of_corner :
    let text := (ofAlgorithm sune).diagram
    charAt? text 0 1 = some '#' ∧ ¬ charAt? text 1 3 = some '#' := by
  intro text
  have hback : charAt? text 0 1 = some '#' := by decide +kernel
  obtain ⟨-, hcubies⟩ := diagram_lights_cubies_once sune
  obtain ⟨-, -, hcubie, -⟩ := hcubies 1 (by decide)
  exact ⟨hback, fun htop => hcubie ⟨hback, htop⟩⟩

/-- The leftmost cell at the back is next to a lit top cell of another corner, and before `F'` so is
the last cell on the right. -/
theorem diagram_lights_neighbors :
    let text := (ofAlgorithm sune).diagram
    let other := (ofAlgorithm [⟨.F, .prime⟩]).diagram
    (charAt? text 0 1 = some '#' ∧ charAt? text 1 1 = some '#') ∧
      charAt? other 3 4 = some '#' ∧ charAt? other 3 3 = some '#' := by
  decide +kernel

end LastLayer.Pattern
