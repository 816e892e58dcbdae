import LastLayer.Geometry

/-!
# Moves

A move is a letter and an amount. The letter says which layers turn about which axis, and which way
a plain quarter turn goes: six outer faces, three slices, six pairs of layers (lower case) and three
rotations of the whole cube. The amount is a quarter turn, a half turn (`2`) or a quarter turn
backwards (`'`).

An algorithm is a list of moves. Its inverse undoes the moves in the opposite order, and taking the
inverse twice gives the algorithm back (`Algorithm.inverse_inverse`).
-/

namespace LastLayer

/-- A quarter turn of some layers about an axis. -/
structure LayerTurn where
  /-- The axis of the turn. -/
  axis : Axis
  /-- The coordinates, along the axis, of the layers that turn. -/
  layers : List Int
  /-- The sense of the turn. -/
  sense : Sense
deriving DecidableEq

namespace LayerTurn

/-- The same layers turned the other way. -/
def reverse (turn : LayerTurn) : LayerTurn :=
  { turn with sense := turn.sense.reverse }

/-- Whether the layer of a position is among those that turn. -/
def selects (turn : LayerTurn) (position : Position) : Bool :=
  turn.layers.contains (position.component turn.axis)

@[simp]
theorem reverse_reverse (turn : LayerTurn) : turn.reverse.reverse = turn := by
  simp [reverse]

/-- Reversing a turn does not change which layers turn. -/
@[simp]
theorem selects_reverse (turn : LayerTurn) (position : Position) :
    turn.reverse.selects position = turn.selects position := rfl

/-- A turn about the axis of some layers leads into these layers just if it starts in them. -/
@[simp]
theorem selects_rotate (turn : LayerTurn) (position : Position) (sense : Sense) :
    turn.selects (position.rotate turn.axis sense) = turn.selects position := by
  simp [selects]

end LayerTurn

/-- The move letters. -/
inductive Letter where
  | R
  | L
  | U
  | D
  | F
  | B
  | M
  | E
  | S
  | r
  | l
  | u
  | d
  | f
  | b
  | x
  | y
  | z
deriving DecidableEq

namespace Letter

/-- All letters: outer faces, slices, pairs of layers, rotations. -/
def all : List Letter :=
  [.R, .L, .U, .D, .F, .B, .M, .E, .S, .r, .l, .u, .d, .f, .b, .x, .y, .z]

/-- The character that stands for a letter. -/
def char : Letter → Char
  | .R => 'R'
  | .L => 'L'
  | .U => 'U'
  | .D => 'D'
  | .F => 'F'
  | .B => 'B'
  | .M => 'M'
  | .E => 'E'
  | .S => 'S'
  | .r => 'r'
  | .l => 'l'
  | .u => 'u'
  | .d => 'd'
  | .f => 'f'
  | .b => 'b'
  | .x => 'x'
  | .y => 'y'
  | .z => 'z'

/-- The letter a character stands for. -/
def ofChar? (c : Char) : Option Letter :=
  all.find? (·.char = c)

/-- The layers a letter turns, and the way a plain quarter turn of them goes. -/
def turn : Letter → LayerTurn
  | .R => ⟨.x, [1], .counterclockwise⟩
  | .L => ⟨.x, [-1], .clockwise⟩
  | .U => ⟨.y, [1], .counterclockwise⟩
  | .D => ⟨.y, [-1], .clockwise⟩
  | .F => ⟨.z, [-1], .clockwise⟩
  | .B => ⟨.z, [1], .counterclockwise⟩
  | .M => ⟨.x, [0], .clockwise⟩
  | .E => ⟨.y, [0], .clockwise⟩
  | .S => ⟨.z, [0], .clockwise⟩
  | .r => ⟨.x, [1, 0], .counterclockwise⟩
  | .l => ⟨.x, [-1, 0], .clockwise⟩
  | .u => ⟨.y, [1, 0], .counterclockwise⟩
  | .d => ⟨.y, [-1, 0], .clockwise⟩
  | .f => ⟨.z, [-1, 0], .clockwise⟩
  | .b => ⟨.z, [1, 0], .counterclockwise⟩
  | .x => ⟨.x, [-1, 0, 1], .counterclockwise⟩
  | .y => ⟨.y, [-1, 0, 1], .counterclockwise⟩
  | .z => ⟨.z, [-1, 0, 1], .clockwise⟩

/-- The letter that turns an outer face together with the slice next to it. Slices, pairs of layers
and rotations stay as they are. -/
def widened : Letter → Letter
  | .R => .r
  | .L => .l
  | .U => .u
  | .D => .d
  | .F => .f
  | .B => .b
  | letter => letter

theorem mem_all (letter : Letter) : letter ∈ all := by
  cases letter <;> decide

/-- Each character stands for at most one letter. -/
@[simp]
theorem ofChar?_char (letter : Letter) : ofChar? letter.char = some letter := by
  cases letter <;> decide

/-- Different letters are different characters. -/
theorem char_injective {first second : Letter} (h : first.char = second.char) : first = second := by
  have hletter := ofChar?_char first
  rw [h, ofChar?_char] at hletter
  exact (Option.some.inj hletter).symm

theorem ofChar?_eq_some_iff {c : Char} {letter : Letter} :
    ofChar? c = some letter ↔ letter.char = c := by
  constructor
  · intro h
    simpa using List.find?_some h
  · rintro rfl
    exact ofChar?_char letter

end Letter

/-- How far a move turns. -/
inductive Amount where
  /-- A quarter turn. -/
  | quarter
  /-- A half turn. -/
  | half
  /-- A quarter turn backwards. -/
  | prime
deriving DecidableEq

namespace Amount

/-- The number of quarter turns made. -/
def quarterTurns : Amount → Nat
  | .quarter => 1
  | .half => 2
  | .prime => 1

/-- The amount that undoes an amount; a half turn undoes itself. -/
def inverse : Amount → Amount
  | .quarter => .prime
  | .half => .half
  | .prime => .quarter

/-- What is written after the letter. -/
def suffix : Amount → String
  | .quarter => ""
  | .half => "2"
  | .prime => "\x27"

@[simp]
theorem inverse_inverse (amount : Amount) : amount.inverse.inverse = amount := by
  cases amount <;> rfl

@[simp]
theorem quarterTurns_inverse (amount : Amount) :
    amount.inverse.quarterTurns = amount.quarterTurns := by
  cases amount <;> rfl

end Amount

/-- A letter turned by an amount. -/
@[ext]
structure Move where
  /-- Which layers turn. -/
  letter : Letter
  /-- How far they turn. -/
  amount : Amount
deriving DecidableEq

namespace Move

/-- The move that undoes a move. -/
def inverse (move : Move) : Move :=
  { move with amount := move.amount.inverse }

/-- The quarter turn a move is made of; a primed move turns the layers of its letter the other
way. -/
def turn (move : Move) : LayerTurn :=
  match move.amount with
  | .quarter | .half => move.letter.turn
  | .prime => move.letter.turn.reverse

/-- How many times a move makes its quarter turn. -/
def quarterTurns (move : Move) : Nat :=
  move.amount.quarterTurns

/-- A move in canonical notation. -/
def text (move : Move) : String :=
  move.letter.char.toString ++ move.amount.suffix

@[simp]
theorem inverse_inverse (move : Move) : move.inverse.inverse = move := by
  simp [inverse]

end Move

/-- A sequence of moves, made from left to right. -/
abbrev Algorithm := List Move

namespace Algorithm

/-- The algorithm that undoes an algorithm: each move undone, the last one first. -/
def inverse (algorithm : Algorithm) : Algorithm :=
  (algorithm.map Move.inverse).reverse

/-- An algorithm in canonical notation, with one space between moves. -/
def text (algorithm : Algorithm) : String :=
  " ".intercalate (algorithm.map Move.text)

@[simp]
theorem inverse_nil : inverse [] = [] := rfl

@[simp]
theorem inverse_cons (move : Move) (algorithm : Algorithm) :
    inverse (move :: algorithm) = inverse algorithm ++ [move.inverse] := by
  simp [inverse]

@[simp]
theorem inverse_append (first second : Algorithm) :
    inverse (first ++ second) = inverse second ++ inverse first := by
  simp [inverse]

@[simp]
theorem length_inverse (algorithm : Algorithm) :
    (inverse algorithm).length = algorithm.length := by
  simp [inverse]

@[simp]
theorem inverse_inverse (algorithm : Algorithm) : inverse (inverse algorithm) = algorithm := by
  simp [inverse, List.map_reverse, Function.comp_def]

end Algorithm

end LastLayer
