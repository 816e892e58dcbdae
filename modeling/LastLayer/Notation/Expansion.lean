import LastLayer.Notation.Error
import LastLayer.Notation.Token

/-!
# Expanding groups

Tokens are expanded into a flat sequence of moves from left to right. A group is built like a
sequence of its own; when it closes, its moves are put behind the enclosing sequence as often as its
repeat count says. The first fault found ends the expansion.

A group may not make the enclosing sequence longer than `maxMoves`. Moves outside groups are not
counted against that limit until a group closes behind them.
-/

namespace LastLayer.Notation

/-- The greatest length to which closing a group may bring the enclosing sequence. -/
def maxMoves : Nat := 100000

/-- The repeat count that a run of digits stands for: one if there are no digits, and nothing if the
number needs more than 64 bits. -/
def repeatCount? (digits : List Char) : Option Nat :=
  if digits.isEmpty then
    some 1
  else
    let count := Nat.ofDigitChars 10 digits 0
    if count < UInt64.size then some count else none

/-- A sequence followed by some copies of a group. -/
def appendCopies (sequence group : Array Move) (count : Nat) : Array Move :=
  if group.isEmpty then sequence else count.repeat (· ++ group) sequence

theorem toList_appendCopies (sequence group : Array Move) (count : Nat) :
    (appendCopies sequence group count).toList =
      sequence.toList ++ (List.replicate count group.toList).flatten := by
  unfold appendCopies
  split
  · rename_i h
    rw [Array.isEmpty_iff] at h
    simp [h]
  · induction count with
    | zero => simp [Nat.repeat]
    | succ count ih => simp [Nat.repeat, ih, List.replicate_succ']

/-- A sequence under construction together with the sequences around it. -/
@[ext]
structure Expansion where
  /-- The moves of the innermost open group, or of the whole text if no group is open. -/
  current : Array Move
  /-- The sequences that the open groups interrupt, innermost first. -/
  enclosing : List (Array Move)

namespace Expansion

/-- No moves yet and no open group. -/
def start : Expansion := ⟨#[], []⟩

/-- Close the innermost group of an expansion and repeat it as its digits say. -/
def close (expansion : Expansion) (digits : List Char) : Except Error Expansion :=
  match expansion.enclosing with
  | [] => .error .unexpectedClose
  | sequence :: enclosing =>
    match repeatCount? digits with
    | none => .error (.repeatCount (String.ofList digits))
    | some count =>
      if sequence.size + expansion.current.size * count ≤ maxMoves then
        .ok ⟨appendCopies sequence expansion.current count, enclosing⟩
      else
        .error (.repeatCount (toString count))

/-- Take one more token into an expansion. -/
def step (expansion : Expansion) : Token → Except Error Expansion
  | .move move => .ok { expansion with current := expansion.current.push move }
  | .opening => .ok ⟨#[], expansion.current :: expansion.enclosing⟩
  | .closing digits => expansion.close digits
  | .unknown c => .error (.invalidMove c)

/-- Take a list of tokens into an expansion, up to the first fault. -/
def run (expansion : Expansion) (tokens : List Token) : Except Error Expansion :=
  tokens.foldlM step expansion

/-- The finished sequence; no group may be open. -/
def finish (expansion : Expansion) : Except Error Algorithm :=
  match expansion.enclosing with
  | [] => .ok expansion.current.toList
  | _ :: _ => .error .unclosedGroup

@[simp]
theorem run_nil (expansion : Expansion) : expansion.run [] = .ok expansion := rfl

theorem run_cons (expansion : Expansion) (token : Token) (tokens : List Token) :
    expansion.run (token :: tokens) = (expansion.step token).bind fun next => next.run tokens := rfl

/-- Tokens can be taken in part by part. -/
theorem run_append (expansion : Expansion) (first second : List Token) :
    expansion.run (first ++ second) =
      (expansion.run first).bind fun next => next.run second := by
  simp [run, List.foldlM_append, bind]

end Expansion

end LastLayer.Notation
