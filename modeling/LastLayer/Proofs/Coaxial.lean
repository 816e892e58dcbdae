import LastLayer.Proofs.Motion
import Mathlib.Algebra.Group.End
import Mathlib.Algebra.BigOperators.Group.List.Basic
import Mathlib.Algebra.Ring.Int.Defs

/-!
# Turns about one axis

Moves whose letters share an axis carry nothing from one layer of that axis to another, so every
layer turns by itself, and all that counts is how far it turns in the end.

The counterclockwise quarter turn about an axis is a permutation, `Turnable.spin`. Its integer powers
are turns either way, and four of it change nothing (`Turnable.spin_pow_four`). The main statement,
`Turnable.applyAll_eq_spin_zpow`, says that an algorithm of moves about one axis turns a thing by the
net number of quarter turns that it gives to the layer of the thing.
-/

namespace LastLayer

/-- The quarter turns that a move makes, clockwise ones counted negatively. -/
def Move.netTurns (move : Move) : Int :=
  move.turn.sense.toInt * move.quarterTurns

theorem Move.axis_turn (move : Move) : move.turn.axis = move.letter.turn.axis := by
  obtain ⟨letter, amount⟩ := move
  cases amount <;> rfl

/-- The quarter turns that the moves of an algorithm give to a layer in all, clockwise ones counted
negatively. -/
def Algorithm.layerTurns (algorithm : Algorithm) (layer : Int) : Int :=
  (algorithm.map fun move => if layer ∈ move.turn.layers then move.netTurns else 0).sum

theorem LayerTurn.selects_iff {layerTurn : LayerTurn} {position : Position} :
    layerTurn.selects position = true ↔ position.component layerTurn.axis ∈ layerTurn.layers :=
  List.contains_iff_mem

namespace Turnable

variable {α : Type} [Turnable α]

/-! ## The quarter turn as a permutation -/

/-- The counterclockwise quarter turn about an axis. -/
def spin (axis : Axis) : Equiv.Perm α where
  toFun a := turn a axis .counterclockwise
  invFun a := turn a axis .clockwise
  left_inv a := turn_turn_reverse a axis .counterclockwise
  right_inv a := turn_turn_reverse a axis .clockwise

theorem turn_eq_spin_zpow (a : α) (axis : Axis) (sense : Sense) :
    turn a axis sense = (spin axis ^ sense.toInt) a := by
  cases sense with
  | counterclockwise => rw [Sense.toInt, zpow_one]; rfl
  | clockwise => rw [Sense.toInt, zpow_neg_one]; rfl

theorem spin_pow_four (axis : Axis) : (spin axis : Equiv.Perm α) ^ 4 = 1 := by
  -- a half turn is the same either way, so a second one undoes it
  have hhalf : (spin axis : Equiv.Perm α) ^ 2 = (spin axis)⁻¹ ^ 2 := by
    ext a
    exact half_turn a axis .counterclockwise
  calc (spin axis : Equiv.Perm α) ^ 4
      = spin axis ^ 2 * spin axis ^ 2 := by rw [← pow_add]
    _ = (spin axis)⁻¹ ^ 2 * spin axis ^ 2 := by rw [← hhalf]
    _ = 1 := by rw [inv_pow, inv_mul_cancel]

/-- Quarter turns count modulo four. -/
theorem spin_zpow (axis : Axis) (turns : Int) :
    (spin axis : Equiv.Perm α) ^ turns = spin axis ^ (turns % 4).toNat := by
  have hnonneg : 0 ≤ turns % 4 := Int.emod_nonneg turns (by decide)
  rw [zpow_eq_zpow_emod' turns (spin_pow_four axis), ← zpow_natCast, Int.toNat_of_nonneg hnonneg]
  rfl

/-- What a quarter turn leaves the same, any number of them does. -/
theorem apply_spin_zpow {β : Type} {axis : Axis} (f : α → β) (h : ∀ a, f (spin axis a) = f a)
    (turns : Int) (a : α) : f ((spin axis ^ turns) a) = f a := by
  rw [spin_zpow]
  induction (turns % 4).toNat with
  | zero => rfl
  | succ n ih => rw [pow_succ', Equiv.Perm.mul_apply, h, ih]

/-- Turns about an axis lead from no layer of the axis to another. -/
theorem component_spin_zpow (axis : Axis) (turns : Int) (a : α) :
    (position ((spin axis ^ turns) a)).component axis = (position a).component axis := by
  refine apply_spin_zpow (fun a => (position a).component axis) (fun a => ?_) turns a
  change (position (turn a axis .counterclockwise)).component axis = _
  rw [position_turn, Position.component_rotate]

/-! ## Moves and algorithms -/

theorem repeat_turn_eq_spin_zpow (axis : Axis) (sense : Sense) (n : Nat) (a : α) :
    Nat.repeat (fun a => turn a axis sense) n a = (spin axis ^ (sense.toInt * n)) a := by
  induction n with
  | zero => rw [Int.natCast_zero, Int.mul_zero, zpow_zero]; rfl
  | succ n ih =>
    rw [Nat.repeat, ih, turn_eq_spin_zpow, ← Equiv.Perm.mul_apply, ← zpow_add, Int.natCast_succ,
      Int.mul_add, Int.mul_one, Int.add_comm]

/-- A move turns what lies in its layers by its net turns. -/
theorem apply_eq_spin_zpow (move : Move) (a : α) :
    apply move a = (spin move.turn.axis ^
      (if move.turn.selects (position a) then move.netTurns else 0)) a := by
  rw [apply_eq_ite, repeat_turn_eq_spin_zpow]
  split
  · rfl
  · rw [zpow_zero, Equiv.Perm.one_apply]

/-- An algorithm of moves about one axis turns a thing by the net turns of its layer. -/
theorem applyAll_eq_spin_zpow {axis : Axis} {algorithm : Algorithm}
    (haxis : ∀ move ∈ algorithm, move.letter.turn.axis = axis) (a : α) :
    applyAll algorithm a =
      (spin axis ^ algorithm.layerTurns ((position a).component axis)) a := by
  induction algorithm generalizing a with
  | nil => rfl
  | cons move algorithm ih =>
    have hmove : move.turn.axis = axis := by
      rw [move.axis_turn]
      exact haxis move List.mem_cons_self
    -- the first move leaves the thing in its layer, so the others turn the same layer
    rw [applyAll_cons, ih fun other hother => haxis other (List.mem_cons_of_mem move hother),
      apply_eq_spin_zpow, hmove, component_spin_zpow, ← Equiv.Perm.mul_apply, ← zpow_add,
      Algorithm.layerTurns, Algorithm.layerTurns, List.map_cons, List.sum_cons, add_comm]
    simp only [LayerTurn.selects_iff, hmove]

end Turnable

end LastLayer
