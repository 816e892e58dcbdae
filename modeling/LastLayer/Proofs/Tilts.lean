import LastLayer.Proofs.Balance
import LastLayer.Proofs.CaseTexts
import LastLayer.Proofs.Extraction
import LastLayer.Proofs.Rotation
import Mathlib.Data.List.Perm.Subperm

/-!
# Previews under rotations that tilt the cube

Validating leaves the rotations `x` and `z` out of an algorithm, but a preview is simulated with all
moves. So a preview shows what is left without these rotations just if the algorithm carries the
same stickers of the top layer to the top with and without them
(`Pattern.preview_ignores_tilt_iff`).

At the end of an algorithm rotations do not change which stickers it carries to one face, but they
may carry another face to the top than the top itself. Then the preview changes, whatever comes
before them (`Pattern.ofAlgorithm_append_rotations_iff`). For if it did not, the algorithm would
carry stickers of the top layer neither to the top nor to the face that the rotations bring there,
and off both of these faces there are not enough corners to hold the four corners of the top layer
(`Pattern.exists_corner_touches`).
-/

namespace LastLayer

open Turnable (applyAll)

/-! ## Rotations and faces -/

namespace Spot

theorem face_repeat_turn (axis : Axis) (sense : Sense) (n : Nat) (spot : Spot) :
    (Nat.repeat (fun s : Spot => s.turn axis sense) n spot).face =
      Nat.repeat (fun face : Face => face.turn axis sense) n spot.face := by
  induction n with
  | zero => rfl
  | succ n ih => rw [Nat.repeat, turn, ih, Nat.repeat]

/-- The stickers of a cubie are carried to all faces that its new place is exposed on. -/
theorem exists_sticker_applyAll_eq (algorithm : Algorithm) {position : Position} {image : Face}
    (h : (applyAll algorithm position).touches image = true) :
    ∃ face, position.touches face = true ∧
      applyAll algorithm (Spot.mk position face) = Spot.mk (applyAll algorithm position) image := by
  obtain ⟨face, hface⟩ := exists_applyAll_eq algorithm position image
  have htouches := touches_applyAll algorithm (Spot.mk position face)
  rw [hface] at htouches
  exact ⟨face, htouches.symm.trans h, hface⟩

variable {rotations : Algorithm} (h : ∀ move ∈ rotations, move.letter.kind = .rotation)
  (first second : Spot) (hfirst : first.position ∈ Position.grid)
  (hsecond : second.position ∈ Position.grid)

include h hfirst hsecond

/-- Rotations carry all spots on a face to one face. -/
theorem face_applyAll_congr (hface : first.face = second.face) :
    (applyAll rotations first).face = (applyAll rotations second).face := by
  induction rotations generalizing first second with
  | nil => exact hface
  | cons rotation rotations ih =>
    obtain ⟨hrotation, hrest⟩ := List.forall_mem_cons.1 h
    have hturn : ∀ {spot : Spot}, spot.position ∈ Position.grid →
        Turnable.apply rotation spot = Nat.repeat
          (fun s : Spot => s.turn rotation.turn.axis rotation.turn.sense)
          rotation.quarterTurns spot := by
      intro spot hspot
      rw [Turnable.apply_eq_ite]
      exact if_pos (Move.selects_of_rotation hrotation hspot)
    rw [Turnable.applyAll_cons, Turnable.applyAll_cons]
    refine ih hrest _ _ (position_applyAll_mem_grid [rotation] hfirst)
      (position_applyAll_mem_grid [rotation] hsecond) ?_
    rw [hturn hfirst, hturn hsecond, face_repeat_turn, face_repeat_turn, hface]

theorem face_applyAll_eq_iff :
    (applyAll rotations first).face = (applyAll rotations second).face ↔
      first.face = second.face := by
  refine ⟨fun hface => ?_, face_applyAll_congr h first second hfirst hsecond⟩
  -- the other face at the position of the first spot is carried to the same spot as the first one
  have hother : (applyAll rotations (Spot.mk first.position second.face)).face =
      (applyAll rotations first).face :=
    (face_applyAll_congr h ⟨first.position, second.face⟩ second hfirst hsecond rfl).trans hface.symm
  have hsame : applyAll rotations (Spot.mk first.position second.face) = applyAll rotations first :=
    Spot.ext (by rw [position_applyAll, position_applyAll]) hother
  exact (congrArg Spot.face (Turnable.applyAll_injective rotations hsame)).symm

end Spot

/-- Whether an algorithm brings the centre of the top face back to the top. -/
def Algorithm.KeepsTop (algorithm : Algorithm) : Prop :=
  (applyAll algorithm (Spot.centre .up)).face = .up

instance (algorithm : Algorithm) : Decidable algorithm.KeepsTop :=
  inferInstanceAs (Decidable (_ = _))

theorem Move.kind_of_isStripped {move : Move} (h : move.isStripped = true) :
    move.letter.kind = .rotation := by
  rw [isStripped, Bool.or_eq_true, decide_eq_true_iff, decide_eq_true_iff] at h
  rcases h with h | h <;> rw [h] <;> rfl

theorem Algorithm.stripped_append_of_isStripped {first last : Algorithm}
    (hfirst : ∀ move ∈ first, move.isStripped = false)
    (hlast : ∀ move ∈ last, move.isStripped = true) : stripped (first ++ last) = first := by
  have hkept : stripped first = first :=
    List.filter_eq_self.2 fun move hmove => by rw [hfirst move hmove, Bool.not_false]
  have hnone : stripped last = [] := by
    refine List.filter_eq_nil_iff.2 fun move hmove => ?_
    rw [hlast move hmove]
    exact Bool.false_ne_true
  calc stripped (first ++ last)
      = stripped first ++ stripped last := List.filter_append _ _
    _ = first := by rw [hkept, hnone, List.append_nil]

namespace Pattern

/-! ## Lit spots -/

theorem ofLit_eq_ofLit_iff {lit lit' : Spot → Bool} :
    ofLit lit = ofLit lit' ↔ ∀ spot ∈ spots, lit spot = lit' spot := by
  constructor
  · intro h
    have hmarks : spots.map lit = spots.map lit' := by rw [← marks_ofLit, h, marks_ofLit]
    exact List.map_inj_left.1 hmarks
  · intro h
    have hrow : ∀ {n : Nat} (row : Vector Position n) (face : Face),
        (∀ position ∈ row, Spot.mk position face ∈ spots) →
          (row.map fun position => lit ⟨position, face⟩) =
            row.map fun position => lit' ⟨position, face⟩ := by
      intro n row face hmem
      exact Vector.map_congr_left fun position hposition => h _ (hmem position hposition)
    rw [ofLit, ofLit, hrow topCells .up (by decide), hrow frontRow .front (by decide),
      hrow rightRow .right (by decide), hrow backRow .back (by decide),
      hrow leftRow .left (by decide)]

/-- A sticker is on top if its spot is on the top face. -/
theorem isTopSpot_iff_of_touches {spot : Spot} (hgrid : spot.position ∈ Position.grid)
    (htouches : spot.position.touches spot.face = true) :
    isTopSpot spot = true ↔ spot.face = .up := by
  rw [isTopSpot_iff]
  constructor
  · rintro ⟨-, -, hface⟩
    exact hface
  · intro hface
    rw [hface] at htouches
    exact ⟨hgrid, of_decide_eq_true htouches, hface⟩

theorem isTopSpot_applyAll_iff (algorithm : Algorithm) {spot : Spot}
    (hgrid : spot.position ∈ Position.grid) (htouches : spot.position.touches spot.face = true) :
    isTopSpot (applyAll algorithm spot) = true ↔ (applyAll algorithm spot).face = .up :=
  isTopSpot_iff_of_touches (Spot.position_applyAll_mem_grid algorithm hgrid)
    ((Spot.touches_applyAll algorithm spot).trans htouches)

/-! ## Rotations at the end -/

/-- No algorithm brings all corners of the top layer off the top and off another face. -/
theorem exists_corner_touches (algorithm : Algorithm) {face : Face} (hface : face ≠ .up) :
    ∃ corner ∈ Position.exposed 3, corner.y = 1 ∧
      ((applyAll algorithm corner).touches .up = true ∨
        (applyAll algorithm corner).touches face = true) := by
  by_contra! hnone
  let corners := (Position.exposed 3).filter (·.y = 1)
  let places := (Position.exposed 3).filter fun corner =>
    !corner.touches .up && !corner.touches face
  have hplaces : ∀ face ∈ Face.all, face ≠ .up →
      ((Position.exposed 3).filter fun corner =>
        !corner.touches .up && !corner.touches face).length ≤ 2 := by decide
  have hnodup : (corners.map (applyAll algorithm)).Nodup :=
    ((Position.nodup_exposed 3).filter _).map fun _ _ => Turnable.applyAll_injective algorithm
  have hsubset : corners.map (applyAll algorithm) ⊆ places := by
    intro place hmem
    obtain ⟨corner, hcorner, rfl⟩ := List.mem_map.1 hmem
    obtain ⟨hexposed, hy⟩ := List.mem_filter.1 hcorner
    obtain ⟨hup, hother⟩ := hnone corner hexposed (of_decide_eq_true hy)
    have hplace : applyAll algorithm corner ∈ Position.exposed 3 :=
      Turnable.invariant_applyAll (· ∈ Position.exposed 3)
        (fun _ axis sense h => Position.rotate_mem_exposed h axis sense) algorithm hexposed
    refine List.mem_filter.2 ⟨hplace, ?_⟩
    rw [Bool.eq_false_iff.2 hup, Bool.eq_false_iff.2 hother]
    rfl
  -- four corners do not fit into two places
  have hle : corners.length ≤ places.length := by
    rw [← List.length_map (applyAll algorithm)]
    exact (List.subperm_of_subset hnodup hsubset).length_le
  have htwo : places.length ≤ 2 := hplaces face face.mem_all hface
  have hfour : corners.length = 4 := by decide
  omega

section

variable (algorithm : Algorithm) {rotations : Algorithm}
  (h : ∀ move ∈ rotations, move.letter.kind = .rotation)

include h

/-- Rotations that keep the top on top carry no other face there. -/
theorem isTopSpot_applyAll_of_keepsTop (hkeeps : rotations.KeepsTop) {spot : Spot}
    (hgrid : spot.position ∈ Position.grid) (htouches : spot.position.touches spot.face = true) :
    isTopSpot (applyAll rotations spot) = isTopSpot spot := by
  have hcentre : (Spot.centre .up).position ∈ Position.grid := by decide
  have hiff := Spot.face_applyAll_eq_iff h spot (Spot.centre .up) hgrid hcentre
  rw [show (applyAll rotations (Spot.centre .up)).face = .up from hkeeps] at hiff
  rw [Bool.eq_iff_iff, isTopSpot_applyAll_iff rotations hgrid htouches,
    isTopSpot_iff_of_touches hgrid htouches]
  exact hiff

theorem ofAlgorithm_append_of_keepsTop (hkeeps : rotations.KeepsTop) :
    ofAlgorithm (algorithm ++ rotations) = ofAlgorithm algorithm := by
  rw [ofAlgorithm_eq_ofLit, ofAlgorithm_eq_ofLit, ofLit_eq_ofLit_iff]
  intro spot hspot
  obtain ⟨hgrid, -, htouches⟩ := mem_spots.1 hspot
  rw [Turnable.applyAll_append]
  exact isTopSpot_applyAll_of_keepsTop h hkeeps (Spot.position_applyAll_mem_grid algorithm hgrid)
    ((Spot.touches_applyAll algorithm spot).trans htouches)

/-- If rotations at the end do not show, then of the faces to which an algorithm carries the
stickers of a cubie of the top layer, they bring the top to the top and no other one. -/
theorem face_applyAll_eq_up_iff
    (hsame : ofAlgorithm (algorithm ++ rotations) = ofAlgorithm algorithm) {position : Position}
    (hgrid : position ∈ Position.grid) (hy : position.y = 1) {image : Face}
    (htouches : (applyAll algorithm position).touches image = true) :
    (applyAll rotations (Spot.mk (Spot.centre .up).position image)).face = .up ↔ image = .up := by
  have hmoved : applyAll algorithm position ∈ Position.grid :=
    Position.applyAll_mem_grid algorithm hgrid
  have hcentre : (Spot.centre .up).position ∈ Position.grid := by decide
  obtain ⟨source, hsticker, hsource⟩ := Spot.exists_sticker_applyAll_eq algorithm htouches
  rw [ofAlgorithm_eq_ofLit, ofAlgorithm_eq_ofLit, ofLit_eq_ofLit_iff] at hsame
  have heq := hsame ⟨position, source⟩ (mem_spots.2 ⟨hgrid, hy, hsticker⟩)
  rw [Turnable.applyAll_append, hsource, Bool.eq_iff_iff,
    isTopSpot_applyAll_iff rotations hmoved htouches,
    isTopSpot_iff_of_touches hmoved htouches] at heq
  -- where the sticker is on its face does not matter to the rotations
  rw [Spot.face_applyAll_congr h ⟨_, image⟩ ⟨applyAll algorithm position, image⟩ hcentre hmoved rfl]
  exact heq

theorem keepsTop_of_ofAlgorithm_append
    (hsame : ofAlgorithm (algorithm ++ rotations) = ofAlgorithm algorithm) :
    rotations.KeepsTop := by
  by_contra hkeeps
  -- some other face is brought to the top
  obtain ⟨face, hface⟩ := Spot.exists_applyAll_eq rotations (Spot.centre .up).position .up
  have hup : (applyAll rotations (Spot.mk (Spot.centre .up).position face)).face = .up :=
    congrArg Spot.face hface
  have hother : face ≠ .up := by
    rintro rfl
    exact hkeeps hup
  obtain ⟨corner, hcorner, hy, htop | htouches⟩ := exists_corner_touches algorithm hother
  · have hgrid := (Position.mem_exposed.1 hcorner).1
    exact hkeeps ((face_applyAll_eq_up_iff algorithm h hsame hgrid hy htop).2 rfl)
  · have hgrid := (Position.mem_exposed.1 hcorner).1
    exact hother ((face_applyAll_eq_up_iff algorithm h hsame hgrid hy htouches).1 hup)

/-- Rotations at the end of an algorithm do not show just if they keep the top on top. -/
theorem ofAlgorithm_append_rotations_iff :
    ofAlgorithm (algorithm ++ rotations) = ofAlgorithm algorithm ↔ rotations.KeepsTop :=
  ⟨keepsTop_of_ofAlgorithm_append algorithm h, ofAlgorithm_append_of_keepsTop algorithm h⟩

end

/-- A preview is simulated with all moves. It shows the algorithm without the rotations `x` and `z`
just if the algorithm carries the same stickers of the top layer to the top with and without them.
If they all stand at the end, that is so just if they keep the top on top. -/
theorem preview_ignores_tilt_iff {entry : Case} {algorithm : Algorithm}
    (h : Algorithm.parse entry.previewAlgorithm = .ok algorithm) :
    let shown := previewOrPlain entry.previewAlgorithm
    shown = ofAlgorithm algorithm ∧
    (shown = ofAlgorithm algorithm.stripped ↔
      ∀ spot ∈ spots, isTopSpot (applyAll algorithm spot) =
        isTopSpot (applyAll algorithm.stripped spot)) ∧
    ∀ first last : Algorithm, algorithm = first ++ last →
      (∀ move ∈ first, move.isStripped = false) → (∀ move ∈ last, move.isStripped = true) →
        (shown = ofAlgorithm algorithm.stripped ↔ last.KeepsTop) := by
  intro shown
  have hshown : shown = ofAlgorithm algorithm := previewOrPlain_of_parse h
  refine ⟨hshown, ?_, ?_⟩
  · rw [hshown, ofAlgorithm_eq_ofLit, ofAlgorithm_eq_ofLit, ofLit_eq_ofLit_iff]
  · rintro first last rfl hfirst hlast
    rw [hshown, Algorithm.stripped_append_of_isStripped hfirst hlast]
    exact ofAlgorithm_append_rotations_iff first fun move hmove =>
      Move.kind_of_isStripped (hlast move hmove)

/-- Behind `R U'` the half turns `x2 z2` keep the top on top, so they do not show. -/
theorem preview_ignores_half_turns :
    let entry : Case :=
      { number := none, setup := none, rotations := none, algorithm := some "R U' x2",
        auf := some "z2", code := none, probability := none, category := none }
    let first : Algorithm := [⟨.R, .quarter⟩, ⟨.U, .prime⟩]
    let last : Algorithm := [⟨.x, .half⟩, ⟨.z, .half⟩]
    Algorithm.parse entry.previewAlgorithm = .ok (first ++ last) ∧
    (∀ move ∈ first, move.isStripped = false) ∧ (∀ move ∈ last, move.isStripped = true) ∧
      previewOrPlain entry.previewAlgorithm =
        ofAlgorithm (Algorithm.stripped (first ++ last)) := by
  intro entry first last
  have hparse : Algorithm.parse entry.previewAlgorithm = .ok (first ++ last) := by decide +kernel
  have hfirst : ∀ move ∈ first, move.isStripped = false := by decide
  have hlast : ∀ move ∈ last, move.isStripped = true := by decide
  obtain ⟨-, -, hend⟩ := preview_ignores_tilt_iff hparse
  exact ⟨hparse, hfirst, hlast, (hend first last rfl hfirst hlast).2 (by decide)⟩

/-- The rotation `x` alone shows, though the case has a warning that it is left out. -/
theorem preview_shows_tilt :
    let entry : Case :=
      { number := some (.number 1), setup := none, rotations := none, algorithm := some "x",
        auf := none, code := none, probability := none, category := none }
    let algorithm : Algorithm := [⟨.x, .quarter⟩]
    Algorithm.parse entry.previewAlgorithm = .ok algorithm ∧ entry.usesTilt = true ∧
      previewOrPlain entry.previewAlgorithm ≠ ofAlgorithm algorithm.stripped := by
  intro entry algorithm
  have hparse : Algorithm.parse entry.previewAlgorithm = .ok algorithm := by decide +kernel
  refine ⟨hparse, by decide +kernel, ?_⟩
  rw [previewOrPlain_of_parse hparse]
  decide

end Pattern

end LastLayer
