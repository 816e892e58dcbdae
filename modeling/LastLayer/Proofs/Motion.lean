import LastLayer.Cube

/-!
# Motion

Positions, stickers and cubies move in the same way: a quarter turn of some layers turns what lies
in these layers and leaves everything else alone, a move makes one quarter turn or two, and an
algorithm makes its moves one after the other. `Turnable` states what is needed of such things, and
the laws of motion are proved for all of them at once:

- `Turnable.applyAll_inverse`: undoing an algorithm puts everything back where it was;
- `Turnable.invariant_applyAll`: what every turn keeps, every algorithm keeps;
- `Turnable.applyAll_simulation`: two things that start out at one position and keep a relation
  under turns keep it under algorithms.

A spot is a position with a face: the place of a sticker. `Cubie.facelet_applyAll` says that an
algorithm moves the color at a spot to wherever it carries the spot.
-/

namespace LastLayer

/-- Things that have a position and can be turned. -/
class Turnable (α : Type) where
  /-- Where a thing is. -/
  position : α → Position
  /-- A thing after a quarter turn about an axis. -/
  turn : α → Axis → Sense → α
  /-- The position turns with the thing. -/
  position_turn : ∀ a axis sense, position (turn a axis sense) = (position a).rotate axis sense
  /-- The opposite turn undoes a turn. -/
  turn_turn_reverse : ∀ a axis sense, turn (turn a axis sense) axis sense.reverse = a
  /-- A half turn is the same either way. -/
  half_turn : ∀ a axis sense,
    turn (turn a axis sense) axis sense = turn (turn a axis sense.reverse) axis sense.reverse

namespace Turnable

variable {α β : Type} [Turnable α] [Turnable β]

/-- A thing after a quarter turn of some layers, which leaves the things in other layers alone. -/
def quarter (layerTurn : LayerTurn) (a : α) : α :=
  if layerTurn.selects (position a) then turn a layerTurn.axis layerTurn.sense else a

/-- A thing after a move. -/
def apply (move : Move) (a : α) : α :=
  move.quarterTurns.repeat (quarter move.turn) a

/-- A thing after all moves of an algorithm. -/
def applyAll (algorithm : Algorithm) (a : α) : α :=
  algorithm.foldl (fun a move => apply move a) a

@[simp]
theorem applyAll_nil (a : α) : applyAll [] a = a := rfl

@[simp]
theorem applyAll_cons (move : Move) (algorithm : Algorithm) (a : α) :
    applyAll (move :: algorithm) a = applyAll algorithm (apply move a) := rfl

theorem applyAll_append (first second : Algorithm) (a : α) :
    applyAll (first ++ second) a = applyAll second (applyAll first a) := by
  simp [applyAll, List.foldl_append]

theorem quarter_of_selects {layerTurn : LayerTurn} {a : α}
    (h : layerTurn.selects (position a) = true) :
    quarter layerTurn a = turn a layerTurn.axis layerTurn.sense :=
  if_pos h

theorem quarter_of_not_selects {layerTurn : LayerTurn} {a : α}
    (h : ¬ layerTurn.selects (position a) = true) : quarter layerTurn a = a :=
  if_neg h

theorem selects_quarter (layerTurn : LayerTurn) (a : α) :
    layerTurn.selects (position (quarter layerTurn a)) = layerTurn.selects (position a) := by
  by_cases h : layerTurn.selects (position a) = true
  · -- a turn moves nothing along its axis, and layers are told apart along it
    rw [quarter_of_selects h, position_turn, LayerTurn.selects_rotate]
  · rw [quarter_of_not_selects h]

theorem selects_repeat_quarter (layerTurn : LayerTurn) (n : Nat) (a : α) :
    layerTurn.selects (position (Nat.repeat (quarter layerTurn) n a)) =
      layerTurn.selects (position a) := by
  induction n with
  | zero => rfl
  | succ n ih => rw [Nat.repeat, selects_quarter, ih]

/-- Whether a thing turns is settled at the first of several quarter turns, since it does not leave
its layer. -/
theorem repeat_quarter (layerTurn : LayerTurn) (n : Nat) (a : α) :
    Nat.repeat (quarter layerTurn) n a =
      if layerTurn.selects (position a) then
        Nat.repeat (fun a => turn a layerTurn.axis layerTurn.sense) n a
      else a := by
  induction n with
  | zero => exact (ite_self a).symm
  | succ n ih =>
    by_cases h : layerTurn.selects (position a) = true
    · have hafter := (selects_repeat_quarter layerTurn n a).trans h
      rw [if_pos h] at ih ⊢
      rw [Nat.repeat, quarter_of_selects hafter, ih, Nat.repeat]
    · have hafter : ¬ layerTurn.selects (position (Nat.repeat (quarter layerTurn) n a)) = true := by
        rwa [selects_repeat_quarter]
      rw [if_neg h] at ih ⊢
      rw [Nat.repeat, quarter_of_not_selects hafter, ih]

/-- A move turns a thing in its layers as often as it makes its quarter turn, and leaves a thing in
other layers alone. -/
theorem apply_eq_ite (move : Move) (a : α) :
    apply move a =
      if move.turn.selects (position a) then
        Nat.repeat (fun a => turn a move.turn.axis move.turn.sense) move.quarterTurns a
      else a :=
  repeat_quarter move.turn move.quarterTurns a

/-! ## Undoing -/

theorem quarter_reverse_quarter (layerTurn : LayerTurn) (a : α) :
    quarter layerTurn.reverse (quarter layerTurn a) = a := by
  by_cases h : layerTurn.selects (position a) = true
  · -- the turned thing is still in a layer that turns back
    have hafter : layerTurn.reverse.selects (position (quarter layerTurn a)) = true := by
      rw [LayerTurn.selects_reverse, selects_quarter, h]
    rw [quarter_of_selects hafter, quarter_of_selects h]
    exact turn_turn_reverse a layerTurn.axis layerTurn.sense
  · rw [quarter_of_not_selects h]
    exact quarter_of_not_selects h

theorem quarter_quarter (layerTurn : LayerTurn) (a : α) :
    quarter layerTurn (quarter layerTurn a) =
      quarter layerTurn.reverse (quarter layerTurn.reverse a) := by
  by_cases h : layerTurn.selects (position a) = true
  · -- the thing never leaves the layers, so all four quarter turns move it
    have hback : layerTurn.reverse.selects (position a) = true := h
    have hafter : layerTurn.selects (position (quarter layerTurn a)) = true := by
      rw [selects_quarter, h]
    have hafterBack :
        layerTurn.reverse.selects (position (quarter layerTurn.reverse a)) = true := by
      rw [selects_quarter, hback]
    rw [quarter_of_selects hafter, quarter_of_selects h, quarter_of_selects hafterBack,
      quarter_of_selects hback]
    exact half_turn a layerTurn.axis layerTurn.sense
  · have hback : ¬ layerTurn.reverse.selects (position a) = true := h
    simp only [quarter_of_not_selects h, quarter_of_not_selects hback]

theorem apply_inverse (move : Move) (a : α) : apply move.inverse (apply move a) = a := by
  obtain ⟨letter, amount⟩ := move
  cases amount with
  | quarter =>
    change quarter letter.turn.reverse (quarter letter.turn a) = a
    exact quarter_reverse_quarter letter.turn a
  | half =>
    -- a half turn is its own inverse: make the second one the other way
    change quarter letter.turn (quarter letter.turn (quarter letter.turn (quarter letter.turn a))) =
      a
    rw [quarter_quarter letter.turn (quarter letter.turn (quarter letter.turn a)),
      quarter_reverse_quarter, quarter_reverse_quarter]
  | prime =>
    change quarter letter.turn (quarter letter.turn.reverse a) = a
    have hundo := quarter_reverse_quarter letter.turn.reverse a
    rwa [LayerTurn.reverse_reverse] at hundo

/-- An algorithm followed by its inverse changes nothing. -/
theorem applyAll_inverse (algorithm : Algorithm) (a : α) :
    applyAll algorithm.inverse (applyAll algorithm a) = a := by
  induction algorithm generalizing a with
  | nil => rfl
  | cons move algorithm ih =>
    -- the inverse undoes the first move last, when all the others are undone
    rw [Algorithm.inverse_cons, applyAll_append, applyAll_cons move algorithm, ih]
    exact apply_inverse move a

theorem applyAll_applyAll_inverse (algorithm : Algorithm) (a : α) :
    applyAll algorithm (applyAll algorithm.inverse a) = a := by
  have hundo := applyAll_inverse algorithm.inverse a
  rwa [Algorithm.inverse_inverse] at hundo

/-- An algorithm carries different things to different things. -/
theorem applyAll_injective (algorithm : Algorithm) {a b : α}
    (h : applyAll algorithm a = applyAll algorithm b) : a = b := by
  rw [← applyAll_inverse algorithm a, h, applyAll_inverse]

/-! ## What algorithms keep -/

/-- What every turn keeps, every algorithm keeps. -/
theorem invariant_applyAll (Invariant : α → Prop)
    (hturn : ∀ a axis sense, Invariant a → Invariant (turn a axis sense))
    (algorithm : Algorithm) {a : α} (h : Invariant a) : Invariant (applyAll algorithm a) := by
  -- from turns to quarter turns of layers, to moves, to algorithms
  have hquarter : ∀ layerTurn a, Invariant a → Invariant (quarter layerTurn a) := by
    intro layerTurn a ha
    unfold quarter
    split
    · exact hturn _ _ _ ha
    · exact ha
  have hrepeat : ∀ layerTurn n a, Invariant a → Invariant (Nat.repeat (quarter layerTurn) n a) := by
    intro layerTurn n a ha
    induction n with
    | zero => exact ha
    | succ n ih => exact hquarter layerTurn _ ih
  induction algorithm generalizing a with
  | nil => exact h
  | cons move algorithm ih => exact ih (hrepeat _ _ _ h)

/-- Two things at one position meet the same layers: a relation that holds of them and that turns
keep is kept by every algorithm. -/
theorem applyAll_simulation (Related : α → β → Prop)
    (hposition : ∀ a b, Related a b → position a = position b)
    (hturn : ∀ a b axis sense, Related a b → Related (turn a axis sense) (turn b axis sense))
    (algorithm : Algorithm) {a : α} {b : β} (h : Related a b) :
    Related (applyAll algorithm a) (applyAll algorithm b) := by
  have hquarter : ∀ layerTurn a b, Related a b →
      Related (quarter layerTurn a) (quarter layerTurn b) := by
    intro layerTurn a b hab
    unfold quarter
    -- the layers select by position, so both things turn or neither does
    rw [hposition a b hab]
    split
    · exact hturn _ _ _ _ hab
    · exact hab
  have hrepeat : ∀ layerTurn n a b, Related a b →
      Related (Nat.repeat (quarter layerTurn) n a) (Nat.repeat (quarter layerTurn) n b) := by
    intro layerTurn n a b hab
    induction n with
    | zero => exact hab
    | succ n ih => exact hquarter layerTurn _ _ ih
  induction algorithm generalizing a b with
  | nil => exact h
  | cons move algorithm ih => exact ih (hrepeat _ _ _ _ h)

end Turnable

/-! ## Positions, spots and cubies -/

instance : Turnable Position where
  position := id
  turn := Position.rotate
  position_turn _ _ _ := rfl
  turn_turn_reverse := Position.rotate_rotate_reverse
  half_turn := Position.half_turn

instance : Turnable Cubie where
  position := Cubie.position
  turn := Cubie.turn
  position_turn _ _ _ := rfl
  turn_turn_reverse := Cubie.turn_turn_reverse
  half_turn := Cubie.half_turn

/-- The place of a sticker. -/
@[ext]
structure Spot where
  /-- The position of the cubie. -/
  position : Position
  /-- The face on which the sticker shows. -/
  face : Face
deriving DecidableEq

/-- A spot after a quarter turn about an axis. -/
def Spot.turn (spot : Spot) (axis : Axis) (sense : Sense) : Spot :=
  ⟨spot.position.rotate axis sense, spot.face.turn axis sense⟩

instance : Turnable Spot where
  position := Spot.position
  turn := Spot.turn
  position_turn _ _ _ := rfl
  turn_turn_reverse spot axis sense := by simp [Spot.turn]
  half_turn spot axis sense := by
    simp only [Spot.turn]
    rw [Position.half_turn, Face.half_turn]

open Turnable (applyAll)

/-- A cubie is carried where its position is carried. -/
theorem Cubie.position_applyAll (algorithm : Algorithm) (cubie : Cubie) :
    (applyAll algorithm cubie).position = applyAll algorithm cubie.position := by
  refine Turnable.applyAll_simulation
    (fun (cubie : Cubie) (position : Position) => cubie.position = position)
    ?_ ?_ algorithm rfl
  · intro cubie position h
    exact h
  · rintro cubie _ axis sense rfl
    rfl

theorem Spot.position_applyAll (algorithm : Algorithm) (spot : Spot) :
    (applyAll algorithm spot).position = applyAll algorithm spot.position := by
  refine Turnable.applyAll_simulation
    (fun (spot : Spot) (position : Position) => spot.position = position)
    ?_ ?_ algorithm rfl
  · intro spot position h
    exact h
  · rintro spot _ axis sense rfl
    rfl

/-- Of the spots at a position, one is carried to any given face. -/
theorem Spot.exists_applyAll_eq (algorithm : Algorithm) (position : Position) (image : Face) :
    ∃ face, applyAll algorithm (Spot.mk position face) =
      Spot.mk (applyAll algorithm position) image := by
  -- carry the wanted spot back; what comes back is at the given position
  obtain ⟨source, hsource⟩ : ∃ source : Spot,
      applyAll algorithm source = Spot.mk (applyAll algorithm position) image :=
    ⟨_, Turnable.applyAll_applyAll_inverse algorithm _⟩
  have hposition : source.position = position := by
    apply Turnable.applyAll_injective algorithm
    rw [← Spot.position_applyAll, hsource]
  refine ⟨source.face, ?_⟩
  rw [← hposition] at hsource ⊢
  exact hsource

namespace Cubie

/-- The color that a cubie shows on a face moves to the face to which an algorithm carries the
spot. -/
theorem facelet_applyAll (algorithm : Algorithm) (cubie : Cubie) (face : Face) :
    (applyAll algorithm cubie).facelet (applyAll algorithm (Spot.mk cubie.position face)).face =
      cubie.facelet face := by
  -- The relation has to keep track of the position as well: it decides which layers turn.
  have hrelated : cubie.position = (Spot.mk cubie.position face).position ∧
      cubie.facelet (Spot.mk cubie.position face).face = cubie.facelet face := ⟨rfl, rfl⟩
  refine (Turnable.applyAll_simulation
    (fun (moved : Cubie) (spot : Spot) =>
      moved.position = spot.position ∧ moved.facelet spot.face = cubie.facelet face)
    ?_ ?_ algorithm hrelated).2
  · intro moved spot h
    exact h.1
  · rintro moved spot axis sense ⟨hposition, hfacelet⟩
    refine ⟨congrArg (Position.rotate · axis sense) hposition, ?_⟩
    exact (facelet_turn moved axis sense spot.face).trans hfacelet

end Cubie

end LastLayer
