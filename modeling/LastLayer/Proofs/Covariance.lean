import LastLayer.Proofs.Structure
import Mathlib.Algebra.Group.End

/-!
# Rotating the whole cube around an algorithm

A move can be told by how it looks from a face: its kind says how high above the centre, towards the
face, the layers are that turn, and its amount says how far they turn, and which way for someone who
looks at the face from outside (`Turnable.apply_eq_act`). No letter is preferred in this description, so
it turns with the cube (`Cubie.turn_act`). For every kind and every face there is a letter, and so a
turned move is a move again (`Move.turned`): it does to a turned cubie what the move did to the cubie
before the turn (`Move.apply_turned`). A move behind a turn can therefore be made in front of it, turned
back, which is the relabelling `Move.relabel`.

A rotation in front of an algorithm and the reverse rotation behind it therefore come to relabelling
the moves between them (`Cube.Reachable.applyAll_between_rotation`), and all rotations can be moved
behind everything else.
-/

namespace LastLayer

/-! ## Faces seen from outside -/

namespace Sense

/-- The sense about the axis of a face that looks like a given one from outside of the face. -/
def seenFrom (sense : Sense) (face : Face) : Sense :=
  if face.side = 1 then sense else sense.reverse

end Sense

namespace Face

/-- The face on the other side of the cube. -/
def opposite : Face → Face
  | .up => .down
  | .down => .up
  | .front => .back
  | .back => .front
  | .right => .left
  | .left => .right

theorem axis_opposite (face : Face) : face.opposite.axis = face.axis := by
  cases face <;> rfl

theorem side_opposite (face : Face) : face.opposite.side = -face.side := by
  cases face <;> rfl

theorem turn_opposite (axis : Axis) (sense : Sense) (face : Face) :
    face.opposite.turn axis sense = (face.turn axis sense).opposite := by
  cases axis <;> cases sense <;> cases face <;> rfl

theorem normal_injective {first second : Face} (h : first.normal = second.normal) :
    first = second := by
  rw [← Option.some_inj, ← ofNormal?_normal first, h, ofNormal?_normal]

end Face

/-- What looks counterclockwise from a face looks clockwise from the opposite one. -/
theorem Sense.reverse_seenFrom_opposite (sense : Sense) (face : Face) :
    sense.reverse.seenFrom face.opposite = sense.seenFrom face := by
  cases face <;> cases sense <;> rfl

namespace Position

theorem height_opposite (position : Position) (face : Face) :
    position.height face.opposite = -position.height face := by
  rw [height, Face.axis_opposite, Face.side_opposite, Int.neg_mul, height]

/-- A turn of a turned position is the turned turn of the position. -/
theorem rotate_rotate (position : Position) (face : Face) (sense : Sense) (axis : Axis)
    (sense' : Sense) :
    (position.rotate face.axis (sense.seenFrom face)).rotate axis sense' =
      (position.rotate axis sense').rotate (face.turn axis sense').axis
        (sense.seenFrom (face.turn axis sense')) := by
  cases axis <;> cases sense' <;> cases face <;> cases sense <;>
    simp [rotate, Face.turn, Face.quarter, Face.axis, Face.side, Sense.seenFrom, Sense.reverse]

end Position

/-- A turn of a turned face is the turned turn of the face, as it is for the normals. -/
theorem Face.turn_turn (image face : Face) (sense : Sense) (axis : Axis) (sense' : Sense) :
    (image.turn face.axis (sense.seenFrom face)).turn axis sense' =
      (image.turn axis sense').turn (face.turn axis sense').axis
        (sense.seenFrom (face.turn axis sense')) := by
  apply normal_injective
  simp only [normal_turn]
  exact image.normal.rotate_rotate face sense axis sense'

theorem Facelets.turn_turn (facelets : Facelets) (face : Face) (sense : Sense) (axis : Axis)
    (sense' : Sense) :
    (facelets.turn face.axis (sense.seenFrom face)).turn axis sense' =
      (facelets.turn axis sense').turn (face.turn axis sense').axis
        (sense.seenFrom (face.turn axis sense')) := by
  refine ext_get fun image => ?_
  -- trace the image back to the face that both ways carry there
  obtain ⟨source, hsource⟩ : ∃ source : Face,
      (source.turn face.axis (sense.seenFrom face)).turn axis sense' = image :=
    ⟨(image.turn axis sense'.reverse).turn face.axis (sense.seenFrom face).reverse, by simp⟩
  rw [← hsource, get_turn, get_turn, Face.turn_turn, get_turn, get_turn]

/-! ## Moves as they look from a face -/

/-- The kinds of turns. -/
inductive TurnKind where
  /-- An outer layer. -/
  | outer
  /-- A middle layer. -/
  | slice
  /-- An outer layer and the middle layer next to it. -/
  | wide
  /-- The whole cube. -/
  | rotation
deriving DecidableEq

/-- How high the layers are that turn, towards the face from which the turn is seen. -/
def TurnKind.heights : TurnKind → List Int
  | .outer => [1]
  | .slice => [0]
  | .wide => [1, 0]
  | .rotation => [1, 0, -1]

/-- The letter of an outer layer. -/
def Face.outerLetter : Face → Letter
  | .up => .U
  | .down => .D
  | .front => .B
  | .back => .F
  | .right => .R
  | .left => .L

/-- The letter of the middle layer of an axis. -/
def Axis.sliceLetter : Axis → Letter
  | .x => .M
  | .y => .E
  | .z => .S

/-- The letter that rotates the whole cube about an axis. -/
def Axis.rotationLetter : Axis → Letter
  | .x => .x
  | .y => .y
  | .z => .z

/-- The letter of a kind for the layers below a face. -/
def TurnKind.letter : TurnKind → Face → Letter
  | .outer, face => face.outerLetter
  | .slice, face => face.axis.sliceLetter
  | .wide, face => face.outerLetter.widened
  | .rotation, face => face.axis.rotationLetter

namespace Letter

/-- The kind of turn that a letter stands for. -/
def kind : Letter → TurnKind
  | .R | .L | .U | .D | .F | .B => .outer
  | .M | .E | .S => .slice
  | .r | .l | .u | .d | .f | .b => .wide
  | .x | .y | .z => .rotation

/-- The face from which a plain quarter turn of a letter looks counterclockwise. -/
def face : Letter → Face
  | .U | .u | .y => .up
  | .D | .d | .E => .down
  | .B | .b => .front
  | .F | .f | .S | .z => .back
  | .R | .r | .x => .right
  | .L | .l | .M => .left

theorem axis_turn (letter : Letter) : letter.turn.axis = letter.face.axis := by
  cases letter <;> rfl

theorem sense_turn (letter : Letter) :
    letter.turn.sense = Sense.counterclockwise.seenFrom letter.face := by
  cases letter <;> rfl

theorem selects_turn (letter : Letter) (position : Position) :
    letter.turn.selects position = true ↔ position.height letter.face ∈ letter.kind.heights := by
  cases letter <;>
    simp [turn, LayerTurn.selects, face, kind, TurnKind.heights, Position.height,
      Position.component, Face.side, Face.axis] <;> omega

end Letter

namespace TurnKind

theorem kind_letter (kind : TurnKind) (face : Face) : (kind.letter face).kind = kind := by
  cases kind <;> cases face <;> rfl

theorem face_letter_of_sided {kind : TurnKind} (h : kind = .outer ∨ kind = .wide) (face : Face) :
    (kind.letter face).face = face := by
  rcases h with rfl | rfl <;> cases face <;> rfl

/-- Slices and rotations have only one letter for two opposite faces. -/
theorem face_letter (kind : TurnKind) (face : Face) :
    (kind.letter face).face = face ∨
      (kind = .slice ∨ kind = .rotation) ∧ (kind.letter face).face = face.opposite := by
  cases kind with
  | outer => exact .inl (face_letter_of_sided (.inl rfl) face)
  | slice => cases face <;> first | exact .inl rfl | exact .inr ⟨.inl rfl, rfl⟩
  | wide => exact .inl (face_letter_of_sided (.inr rfl) face)
  | rotation => cases face <;> first | exact .inl rfl | exact .inr ⟨.inr rfl, rfl⟩

/-- The layers of slices and rotations are at the same heights over opposite faces. -/
theorem neg_mem_heights {kind : TurnKind} (h : kind = .slice ∨ kind = .rotation) (height : Int) :
    -height ∈ kind.heights ↔ height ∈ kind.heights := by
  rcases h with rfl | rfl <;> simp only [heights, List.mem_cons, List.not_mem_nil, or_false] <;>
    omega

end TurnKind

/-- The sense of the quarter turns that an amount stands for, seen from the face of the letter. -/
def Amount.sense : Amount → Sense
  | .quarter | .half => .counterclockwise
  | .prime => .clockwise

namespace Move

theorem axis_turn_eq (move : Move) : move.turn.axis = move.letter.face.axis := by
  obtain ⟨letter, amount⟩ := move
  cases amount <;> exact letter.axis_turn

theorem sense_turn (move : Move) :
    move.turn.sense = move.amount.sense.seenFrom move.letter.face := by
  obtain ⟨letter, amount⟩ := move
  cases amount with
  | quarter => exact letter.sense_turn
  | half => exact letter.sense_turn
  | prime =>
    change letter.turn.sense.reverse = _
    rw [letter.sense_turn]
    cases letter <;> rfl

theorem selects_turn (move : Move) (position : Position) :
    move.turn.selects position = true ↔
      position.height move.letter.face ∈ move.letter.kind.heights := by
  obtain ⟨letter, amount⟩ := move
  cases amount <;> exact letter.selects_turn position

/-- The move of a kind that looks like a given amount from a face. -/
def ofFace (kind : TurnKind) (face : Face) (amount : Amount) : Move :=
  ⟨kind.letter face, if (kind.letter face).face = face then amount else amount.inverse⟩

theorem ofFace_self (move : Move) :
    ofFace move.letter.kind move.letter.face move.amount = move := by
  obtain ⟨letter, amount⟩ := move
  cases letter <;> rfl

/-- From the opposite face a slice or a rotation looks inverse. -/
theorem ofFace_opposite {kind : TurnKind} (h : kind = .slice ∨ kind = .rotation) (face : Face)
    (amount : Amount) : ofFace kind face.opposite amount.inverse = ofFace kind face amount := by
  rcases h with rfl | rfl <;> cases face <;> cases amount <;> rfl

/-- A move turned together with the whole cube. -/
def turned (axis : Axis) (sense : Sense) (move : Move) : Move :=
  ofFace move.letter.kind (move.letter.face.turn axis sense) move.amount

theorem turned_ofFace (axis : Axis) (sense : Sense) (kind : TurnKind) (face : Face)
    (amount : Amount) :
    (ofFace kind face amount).turned axis sense = ofFace kind (face.turn axis sense) amount := by
  obtain hface | ⟨hkind, hface⟩ := kind.face_letter face
  · simp only [turned, ofFace, kind.kind_letter, hface, if_true]
  · -- the letter belongs to the opposite face
    have hne : face.opposite ≠ face := by cases face <;> decide
    have hmove : ofFace kind face amount = ⟨kind.letter face, amount.inverse⟩ := by
      rw [ofFace, hface, if_neg hne]
    rw [hmove, turned, kind.kind_letter, hface, Face.turn_opposite]
    exact ofFace_opposite hkind _ amount

theorem turned_reverse_turned (axis : Axis) (sense : Sense) (move : Move) :
    (move.turned axis sense).turned axis sense.reverse = move := by
  change (ofFace move.letter.kind (move.letter.face.turn axis sense) move.amount).turned axis
    sense.reverse = move
  rw [turned_ofFace, Face.turn_turn_reverse, ofFace_self]

end Move

namespace Turnable

variable {α : Type} [Turnable α]

/-- What a move of a kind does that looks like a given amount from a face. -/
def act (kind : TurnKind) (face : Face) (amount : Amount) (a : α) : α :=
  if (position a).height face ∈ kind.heights then
    Nat.repeat (fun a => turn a face.axis (amount.sense.seenFrom face)) amount.quarterTurns a
  else a

theorem apply_eq_act (move : Move) (a : α) :
    apply move a = act move.letter.kind move.letter.face move.amount a := by
  rw [apply_eq_ite, act, move.axis_turn_eq, move.sense_turn]
  simp only [move.selects_turn]
  rfl

/-- From the opposite face the amount looks inverse. -/
theorem act_opposite {kind : TurnKind} (hkind : kind = .slice ∨ kind = .rotation) (face : Face)
    (amount : Amount) (a : α) :
    act kind face.opposite amount.inverse a = act kind face amount a := by
  rw [act, act, Face.axis_opposite, Position.height_opposite]
  simp only [TurnKind.neg_mem_heights hkind]
  congr 1
  cases amount with
  | quarter =>
    exact congrArg (turn a face.axis) (Sense.counterclockwise.reverse_seenFrom_opposite face)
  | half =>
    -- a half turn is the same either way
    have hsense : Amount.half.inverse.sense.seenFrom face.opposite =
        (Amount.half.sense.seenFrom face).reverse := by cases face <;> rfl
    rw [hsense]
    exact (half_turn a face.axis (Amount.half.sense.seenFrom face)).symm
  | prime => exact congrArg (turn a face.axis) (Sense.clockwise.reverse_seenFrom_opposite face)

theorem apply_ofFace (kind : TurnKind) (face : Face) (amount : Amount) (a : α) :
    apply (Move.ofFace kind face amount) a = act kind face amount a := by
  rw [apply_eq_act, Move.ofFace, kind.kind_letter]
  by_cases h : (kind.letter face).face = face
  · rw [if_pos h, h]
  · obtain hface | ⟨hkind, hface⟩ := kind.face_letter face
    · exact absurd hface h
    · rw [if_neg h, hface]
      exact act_opposite hkind face amount a

end Turnable

/-! ## Turning moves -/

namespace Cubie

open Turnable (act)

theorem turn_turn (cubie : Cubie) (face : Face) (sense : Sense) (axis : Axis) (sense' : Sense) :
    (cubie.turn face.axis (sense.seenFrom face)).turn axis sense' =
      (cubie.turn axis sense').turn (face.turn axis sense').axis
        (sense.seenFrom (face.turn axis sense')) :=
  Cubie.ext (cubie.position.rotate_rotate face sense axis sense')
    (cubie.facelets.turn_turn face sense axis sense')

/-- A move made on a turned cubie is the turn of what the move does, seen from the turned face. -/
theorem turn_act (kind : TurnKind) (face : Face) (amount : Amount) (cubie : Cubie) (axis : Axis)
    (sense : Sense) :
    (act kind face amount cubie).turn axis sense =
      act kind (face.turn axis sense) amount (cubie.turn axis sense) := by
  have hheight : (Turnable.position (cubie.turn axis sense)).height (face.turn axis sense) =
      (Turnable.position cubie).height face :=
    cubie.position.height_rotate axis sense face
  rw [act, act, hheight]
  split
  · induction amount.quarterTurns with
    | zero => rfl
    | succ n ih =>
      rw [Nat.repeat, Nat.repeat, ← ih]
      exact turn_turn _ face amount.sense axis sense
  · rfl

end Cubie

namespace Move

theorem apply_turned (axis : Axis) (sense : Sense) (move : Move) (cubie : Cubie) :
    Turnable.apply (move.turned axis sense) (cubie.turn axis sense) =
      (Turnable.apply move cubie).turn axis sense := by
  rw [turned, Turnable.apply_ofFace, ← Cubie.turn_act, Turnable.apply_eq_act]

/-- The relabelling that goes with a quarter turn of the whole cube: a move made after the turn is the
move turned back, made before it. -/
def relabel (axis : Axis) (sense : Sense) : Equiv.Perm Move where
  toFun move := move.turned axis sense.reverse
  invFun move := move.turned axis sense
  left_inv move := by
    have hback := move.turned_reverse_turned axis sense.reverse
    rwa [Sense.reverse_reverse] at hback
  right_inv move := move.turned_reverse_turned axis sense

theorem turn_apply_relabel (axis : Axis) (sense : Sense) (move : Move) (cubie : Cubie) :
    (Turnable.apply (relabel axis sense move) cubie).turn axis sense =
      Turnable.apply move (cubie.turn axis sense) := by
  rw [← apply_turned]
  exact congrArg (Turnable.apply · (cubie.turn axis sense))
    ((relabel axis sense).symm_apply_apply move)

/-- What a renaming of moves has to respect: outer turns and wide turns become such turns by the same
amount, slices become slices, rotations become rotations, and half turns stay half turns. -/
structure IsRelabelling (relabel : Equiv.Perm Move) : Prop where
  /-- The kind of turn stays the same. -/
  kind_eq : ∀ move, (relabel move).letter.kind = move.letter.kind
  /-- Outer and wide turns turn by the same amount. -/
  amount_eq : ∀ move, move.letter.kind = .outer ∨ move.letter.kind = .wide →
    (relabel move).amount = move.amount
  /-- Half turns correspond to half turns. -/
  half_iff : ∀ move, (relabel move).amount = .half ↔ move.amount = .half

theorem isRelabelling_one : IsRelabelling 1 :=
  ⟨fun _ => rfl, fun _ _ => rfl, fun _ => Iff.rfl⟩

theorem IsRelabelling.mul {first second : Equiv.Perm Move} (hfirst : IsRelabelling first)
    (hsecond : IsRelabelling second) : IsRelabelling (first * second) where
  kind_eq move := (hfirst.kind_eq (second move)).trans (hsecond.kind_eq move)
  amount_eq move hkind := by
    rw [← hsecond.kind_eq move] at hkind
    refine (hfirst.amount_eq (second move) hkind).trans (hsecond.amount_eq move ?_)
    rwa [hsecond.kind_eq move] at hkind
  half_iff move := (hfirst.half_iff (second move)).trans (hsecond.half_iff move)

theorem isRelabelling_relabel (axis : Axis) (sense : Sense) :
    IsRelabelling (relabel axis sense) where
  kind_eq move := move.letter.kind.kind_letter _
  amount_eq move hkind := if_pos (TurnKind.face_letter_of_sided hkind _)
  half_iff move := by
    change (ite _ move.amount move.amount.inverse) = Amount.half ↔ _
    split
    · rfl
    · cases move.amount <;> decide

theorem IsRelabelling.pow {relabel : Equiv.Perm Move} (h : IsRelabelling relabel) (n : Nat) :
    IsRelabelling (relabel ^ n) := by
  induction n with
  | zero => exact isRelabelling_one
  | succ n ih =>
    rw [pow_succ]
    exact ih.mul h

/-- Several quarter turns of the whole cube relabel as often. -/
theorem repeat_turn_apply_relabel (axis : Axis) (sense : Sense) (n : Nat) (move : Move)
    (cubie : Cubie) :
    Nat.repeat (fun c : Cubie => c.turn axis sense) n
        (Turnable.apply ((relabel axis sense ^ n) move) cubie) =
      Turnable.apply move (Nat.repeat (fun c : Cubie => c.turn axis sense) n cubie) := by
  induction n generalizing move with
  | zero => rfl
  | succ n ih =>
    rw [pow_succ, Equiv.Perm.mul_apply, Nat.repeat, ih, turn_apply_relabel, Nat.repeat]

theorem repeat_turn_applyAll_relabel (axis : Axis) (sense : Sense) (n : Nat) (algorithm : Algorithm)
    (cubie : Cubie) :
    Nat.repeat (fun c : Cubie => c.turn axis sense) n
        (Turnable.applyAll (algorithm.map (relabel axis sense ^ n)) cubie) =
      Turnable.applyAll algorithm (Nat.repeat (fun c : Cubie => c.turn axis sense) n cubie) := by
  induction algorithm generalizing cubie with
  | nil => rfl
  | cons move algorithm ih =>
    rw [List.map_cons, Turnable.applyAll_cons, Turnable.applyAll_cons, ih,
      repeat_turn_apply_relabel]

/-- The relabelling that goes with a rotation of the whole cube. -/
def relabelling (rotation : Move) : Equiv.Perm Move :=
  relabel rotation.turn.axis rotation.turn.sense ^ rotation.quarterTurns

/-- The rotation `x` carries the layer of `F` up, so `U'` on the rotated cube is `F'` before it. -/
example : relabelling ⟨.x, .quarter⟩ ⟨.U, .prime⟩ = ⟨.F, .prime⟩ := by decide

theorem isRelabelling_relabelling (rotation : Move) : IsRelabelling rotation.relabelling :=
  (isRelabelling_relabel _ _).pow _

theorem selects_of_rotation {rotation : Move} (h : rotation.letter.kind = .rotation)
    {position : Position} (hposition : position ∈ Position.grid) :
    rotation.turn.selects position = true := by
  have hmem := Position.component_mem_layers hposition rotation.letter.face.axis
  rw [rotation.selects_turn, h, Position.height]
  simp only [Position.layers, TurnKind.heights, List.mem_cons, List.not_mem_nil, or_false]
    at hmem ⊢
  have hside : rotation.letter.face.side = 1 ∨ rotation.letter.face.side = -1 := by
    cases rotation.letter.face <;> decide
  rcases hside with hside | hside <;> rw [hside] <;> omega

/-- A rotation turns every cubie of the grid. -/
theorem apply_of_rotation {rotation : Move} (h : rotation.letter.kind = .rotation) {cubie : Cubie}
    (hcubie : cubie.position ∈ Position.grid) :
    Turnable.apply rotation cubie = Nat.repeat
      (fun c : Cubie => c.turn rotation.turn.axis rotation.turn.sense) rotation.quarterTurns cubie := by
  rw [Turnable.apply_eq_ite]
  exact if_pos (selects_of_rotation h hcubie)

end Move

/-- A rotation, an algorithm and the rotation undone: the rotation relabels the moves. -/
theorem Cubie.applyAll_between_rotation {rotation : Move} (h : rotation.letter.kind = .rotation)
    (algorithm : Algorithm) {cubie : Cubie} (hcubie : cubie.position ∈ Position.grid) :
    Turnable.applyAll (rotation :: algorithm ++ [rotation.inverse]) cubie =
      Turnable.applyAll (algorithm.map rotation.relabelling) cubie := by
  have hmoved : (Turnable.applyAll (algorithm.map rotation.relabelling) cubie).position ∈
      Position.grid := by
    rw [position_applyAll]
    exact Position.applyAll_mem_grid _ hcubie
  rw [Turnable.applyAll_append, Turnable.applyAll_cons, Turnable.applyAll_cons,
    Turnable.applyAll_nil, Move.apply_of_rotation h hcubie, ← Move.repeat_turn_applyAll_relabel]
  -- what the relabelled moves lead to is rotated and rotated back
  change Turnable.apply rotation.inverse (Nat.repeat _ _ (Turnable.applyAll
    (algorithm.map rotation.relabelling) cubie)) = _
  rw [← Move.apply_of_rotation h hmoved, Turnable.apply_inverse]

namespace Cube

theorem Reachable.applyAll_between_rotation {cube : Cube} (hcube : cube.Reachable) {rotation : Move}
    (h : rotation.letter.kind = .rotation) (algorithm : Algorithm) :
    cube.applyAll (rotation :: algorithm ++ [rotation.inverse]) =
      cube.applyAll (algorithm.map rotation.relabelling) := by
  apply ext_slot
  intro index
  rw [slot_applyAll, slot_applyAll]
  exact Cubie.applyAll_between_rotation h algorithm
    (hcube.position_mem_grid (cube.slot_mem_cubies index))

/-- A rotation can be made behind an algorithm instead of in front of it. -/
theorem Reachable.applyAll_rotation_cons {cube : Cube} (hcube : cube.Reachable) {rotation : Move}
    (h : rotation.letter.kind = .rotation) (algorithm : Algorithm) :
    cube.applyAll (rotation :: algorithm) =
      cube.applyAll (algorithm.map rotation.relabelling ++ [rotation]) := by
  -- rotate back, and forth again
  have hback := applyAll_applyAll_inverse (cube.applyAll (rotation :: algorithm)) [rotation]
  rw [applyAll_append, ← hcube.applyAll_between_rotation h, applyAll_append]
  exact hback.symm

/-- All rotations of an algorithm can be made at the end, after moves of the same kinds as the other
moves of the algorithm. -/
theorem exists_rotations_last (algorithm : Algorithm) :
    ∃ plain : Algorithm,
      plain.map (·.letter.kind) =
        (algorithm.map (·.letter.kind)).filter (· ≠ .rotation) ∧
      ∀ cube : Cube, cube.Reachable → cube.applyAll algorithm =
        cube.applyAll (plain ++ algorithm.filter (·.letter.kind = .rotation)) := by
  induction algorithm with
  | nil => exact ⟨[], rfl, fun _ _ => rfl⟩
  | cons move algorithm ih =>
    obtain ⟨plain, hkinds, hplain⟩ := ih
    by_cases h : move.letter.kind = .rotation
    · -- the moves that a rotation passes are relabelled
      refine ⟨plain.map move.relabelling, ?_, fun cube hcube => ?_⟩
      · have hkind : ∀ other, (move.relabelling other).letter.kind = other.letter.kind :=
          move.isRelabelling_relabelling.kind_eq
        simpa [h, hkind, Function.comp_def] using hkinds
      · calc cube.applyAll (move :: algorithm)
            = (cube.applyAll (move :: plain)).applyAll
                (algorithm.filter (·.letter.kind = .rotation)) := by
              rw [applyAll_cons, hplain _ (hcube.apply move), applyAll_append, applyAll_cons]
          _ = cube.applyAll (plain.map move.relabelling ++
                (move :: algorithm).filter (·.letter.kind = .rotation)) := by
              rw [hcube.applyAll_rotation_cons h, ← applyAll_append, List.append_assoc]
              simp [h]
    · refine ⟨move :: plain, ?_, fun cube hcube => ?_⟩
      · simpa [h] using hkinds
      · rw [applyAll_cons, hplain _ (hcube.apply move), List.cons_append, applyAll_cons]
        simp [h]

/-- The moves are covariant under rotations of the whole cube: to each rotation there belongs a
bijective relabelling of the moves, which takes outer turns to outer turns and wide turns to wide
turns by the same amount, slices to slices, rotations to rotations and half turns to half turns, such
that making the rotation, any algorithm, and the reverse rotation leads every reachable cube to the
same cube, slot for slot, as the relabelled algorithm. So all rotations can be pushed behind the
other moves of an algorithm. -/
theorem rotations_relabel_moves :
    (∀ rotation : Move, rotation.letter.kind = .rotation →
      ∃ relabel : Equiv.Perm Move, Move.IsRelabelling relabel ∧
        ∀ (algorithm : Algorithm) (cube : Cube), cube.Reachable →
          cube.applyAll (rotation :: algorithm ++ [rotation.inverse]) =
            cube.applyAll (algorithm.map relabel)) ∧
    ∀ algorithm : Algorithm, ∃ plain : Algorithm,
      plain.map (·.letter.kind) =
        (algorithm.map (·.letter.kind)).filter (· ≠ .rotation) ∧
      ∀ cube : Cube, cube.Reachable → cube.applyAll algorithm =
        cube.applyAll (plain ++ algorithm.filter (·.letter.kind = .rotation)) := by
  refine ⟨fun rotation h => ?_, exists_rotations_last⟩
  refine ⟨rotation.relabelling, rotation.isRelabelling_relabelling, ?_⟩
  intro algorithm cube hcube
  exact hcube.applyAll_between_rotation h algorithm

/-- After `R u` the rotation `z'` in front of `U M' f2` and `z` behind it relabel the three moves, and
`x U z' F` comes to two moves and the two rotations. -/
theorem rotations_relabel_moves_after_two_moves :
    let cube := solved.applyAll [⟨.R, .quarter⟩, ⟨.u, .quarter⟩]
    let algorithm : Algorithm := [⟨.U, .quarter⟩, ⟨.M, .prime⟩, ⟨.f, .half⟩]
    cube.Reachable ∧ (Move.mk .z .prime).letter.kind = .rotation ∧
    (∃ relabel : Equiv.Perm Move, Move.IsRelabelling relabel ∧
      cube.applyAll (⟨.z, .prime⟩ :: algorithm ++ [⟨.z, .quarter⟩]) =
        cube.applyAll (algorithm.map relabel)) ∧
    ∃ plain : Algorithm, plain.map (·.letter.kind) = [.outer, .outer] ∧
      cube.applyAll [⟨.x, .quarter⟩, ⟨.U, .quarter⟩, ⟨.z, .prime⟩, ⟨.F, .quarter⟩] =
        cube.applyAll (plain ++ [⟨.x, .quarter⟩, ⟨.z, .prime⟩]) := by
  intro cube algorithm
  have hcube : cube.Reachable := Reachable.solved.applyAll _
  have hrotation : (Move.mk .z .prime).letter.kind = .rotation := rfl
  obtain ⟨hrelabels, hlast⟩ := rotations_relabel_moves
  obtain ⟨relabel, hrelabel, hsame⟩ := hrelabels ⟨.z, .prime⟩ hrotation
  obtain ⟨plain, hkinds, hplain⟩ :=
    hlast [⟨.x, .quarter⟩, ⟨.U, .quarter⟩, ⟨.z, .prime⟩, ⟨.F, .quarter⟩]
  exact ⟨hcube, hrotation, ⟨relabel, hrelabel, hsame algorithm cube hcube⟩, plain, hkinds,
    hplain cube hcube⟩

end Cube

end LastLayer
