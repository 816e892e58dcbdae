import LastLayer.Face
import LastLayer.Move

/-!
# Cubies

A cubie is one of the small cubes: a position, and the colors it shows on the six faces of the cube.
Turning a cubie about an axis moves its position and its colors together, as one rigid body. The
main statements are that no turn drops a sticker (`Facelets.putTurned_eq_put`), that the color on a
face is carried to the turned face (`Cubie.facelet_turn`), and that a turn is undone by the reverse
turn (`Cubie.turn_turn_reverse`), wherever the cubie is.
-/

namespace LastLayer

/-- What shows on each of the six faces: a color, or nothing where the cubie has no sticker. -/
@[ext]
structure Facelets where
  /-- What shows on top. -/
  up : Option Color
  /-- What shows below. -/
  down : Option Color
  /-- What shows in front. -/
  front : Option Color
  /-- What shows behind. -/
  back : Option Color
  /-- What shows on the right. -/
  right : Option Color
  /-- What shows on the left. -/
  left : Option Color
deriving DecidableEq

namespace Facelets

/-- What shows on a face. -/
def get (facelets : Facelets) : Face → Option Color
  | .up => facelets.up
  | .down => facelets.down
  | .front => facelets.front
  | .back => facelets.back
  | .right => facelets.right
  | .left => facelets.left

/-- The facelets that show a given thing on each face. -/
def ofFaces (sticker : Face → Option Color) : Facelets :=
  ⟨sticker .up, sticker .down, sticker .front, sticker .back, sticker .right, sticker .left⟩

/-- The sticker on a face, if the face shows a color: the face with its color. -/
def sticker? (facelets : Facelets) (face : Face) : Option (Face × Color) :=
  (facelets.get face).map (Prod.mk face)

/-- The faces that show a color, with the color, in the order of `Face.all`. -/
def toList (facelets : Facelets) : List (Face × Color) :=
  Face.all.filterMap facelets.sticker?

/-- The colors that show, in the order of their faces. -/
def colors (facelets : Facelets) : List Color :=
  facelets.toList.map Prod.snd

/-- Facelets without any sticker. -/
def blank : Facelets :=
  ofFaces fun _ => none

/-- The facelets with a sticker put on a face. -/
def put (facelets : Facelets) (face : Face) (color : Color) : Facelets :=
  match face with
  | .up => { facelets with up := some color }
  | .down => { facelets with down := some color }
  | .front => { facelets with front := some color }
  | .back => { facelets with back := some color }
  | .right => { facelets with right := some color }
  | .left => { facelets with left := some color }

/-- Put a sticker on the face to which a quarter turn carries it: the one whose normal is the turned
normal of the sticker's face. A normal that belongs to no face would drop the sticker. -/
def putTurned (axis : Axis) (sense : Sense) (facelets : Facelets) (sticker : Face × Color) :
    Facelets :=
  match Face.ofNormal? (sticker.1.normal.rotate axis sense) with
  | some face => facelets.put face sticker.2
  | none => facelets

/-- The facelets after a quarter turn: every sticker is put anew where the turn carries it. -/
def turn (facelets : Facelets) (axis : Axis) (sense : Sense) : Facelets :=
  facelets.toList.foldl (putTurned axis sense) blank

@[simp]
theorem get_ofFaces (sticker : Face → Option Color) (face : Face) :
    (ofFaces sticker).get face = sticker face := by
  cases face <;> rfl

/-- Facelets that show the same on every face are equal. -/
theorem ext_get {first second : Facelets} (h : ∀ face, first.get face = second.get face) :
    first = second :=
  Facelets.ext (h .up) (h .down) (h .front) (h .back) (h .right) (h .left)

@[simp]
theorem get_blank (face : Face) : blank.get face = none :=
  get_ofFaces _ face

theorem get_put (facelets : Facelets) (face other : Face) (color : Color) :
    (facelets.put face color).get other =
      if face = other then some color else facelets.get other := by
  cases face <;> cases other <;> rfl

/-- No turn drops a sticker: it is put on the turned face. -/
theorem putTurned_eq_put (axis : Axis) (sense : Sense) (facelets : Facelets)
    (sticker : Face × Color) :
    putTurned axis sense facelets sticker =
      facelets.put (sticker.1.turn axis sense) sticker.2 := by
  rw [putTurned, Face.ofNormal?_rotate_normal]

/-- After the stickers of some faces have been put anew, the turned image of each of these faces
shows what the face showed, and the image of any other face is as it was. -/
theorem get_foldl_putTurned (facelets : Facelets) (axis : Axis) (sense : Sense)
    (faces : List Face) (turned : Facelets) (face : Face) :
    ((faces.filterMap facelets.sticker?).foldl (putTurned axis sense) turned).get
        (face.turn axis sense) =
      if face ∈ faces then (facelets.get face).or (turned.get (face.turn axis sense))
      else turned.get (face.turn axis sense) := by
  induction faces generalizing turned with
  | nil => simp
  | cons source faces ih =>
    cases hsource : facelets.get source with
    | none =>
      have hsticker : facelets.sticker? source = none := by rw [sticker?, hsource, Option.map_none]
      rw [List.filterMap_cons_none hsticker, ih]
      by_cases hface : face = source
      · simp [hface, hsource]
      · simp [hface]
    | some color =>
      have hsticker : facelets.sticker? source = some (source, color) := by
        rw [sticker?, hsource, Option.map_some]
      rw [List.filterMap_cons_some hsticker, List.foldl_cons, putTurned_eq_put, ih, get_put]
      by_cases hface : face = source
      · simp [hface, hsource]
      · have hturned : source.turn axis sense ≠ face.turn axis sense := by
          intro heq
          exact hface (Face.turn_injective axis sense heq).symm
        simp [hface, hturned]

/-- A turn carries what shows on a face to the turned face. -/
@[simp]
theorem get_turn (facelets : Facelets) (axis : Axis) (sense : Sense) (face : Face) :
    (facelets.turn axis sense).get (face.turn axis sense) = facelets.get face := by
  unfold turn toList
  rw [get_foldl_putTurned, if_pos (Face.mem_all face), get_blank, Option.or_none]

/-- Each face shows after a turn what was on the face that is carried to it. -/
theorem get_turn_eq (facelets : Facelets) (axis : Axis) (sense : Sense) (face : Face) :
    (facelets.turn axis sense).get face = facelets.get (face.turn axis sense.reverse) := by
  rw [← get_turn facelets axis sense, Face.turn_reverse_turn]

@[simp]
theorem turn_turn_reverse (facelets : Facelets) (axis : Axis) (sense : Sense) :
    (facelets.turn axis sense).turn axis sense.reverse = facelets := by
  apply ext_get
  intro face
  rw [get_turn_eq, Sense.reverse_reverse, get_turn]

/-- Two quarter turns one way show what two quarter turns the other way show. -/
theorem half_turn (facelets : Facelets) (axis : Axis) (sense : Sense) :
    (facelets.turn axis sense).turn axis sense =
      (facelets.turn axis sense.reverse).turn axis sense.reverse := by
  apply ext_get
  intro face
  simp only [get_turn_eq, Sense.reverse_reverse]
  rw [Face.half_turn, Sense.reverse_reverse]

end Facelets

/-- One of the small cubes. -/
@[ext]
structure Cubie where
  /-- Where the cubie is. -/
  position : Position
  /-- What the cubie shows on the faces of the cube. -/
  facelets : Facelets
deriving DecidableEq

namespace Position

/-- Whether a position lies in the layer of a face. -/
def touches (position : Position) (face : Face) : Bool :=
  position.component face.axis = face.side

end Position

namespace Cubie

/-- The cubie of a solved cube at a position: it has a sticker on each face in whose layer it
lies. -/
def solved (position : Position) : Cubie :=
  ⟨position, .ofFaces fun face => if position.touches face then some face.color else none⟩

/-- What a cubie shows on a face. -/
def facelet (cubie : Cubie) (face : Face) : Option Color :=
  cubie.facelets.get face

/-- A cubie after a quarter turn about an axis. -/
def turn (cubie : Cubie) (axis : Axis) (sense : Sense) : Cubie :=
  ⟨cubie.position.rotate axis sense, cubie.facelets.turn axis sense⟩

/-- A cubie after a quarter turn of some layers, which leaves the cubies of the other layers
alone. -/
def quarter (layerTurn : LayerTurn) (cubie : Cubie) : Cubie :=
  if layerTurn.selects cubie.position then cubie.turn layerTurn.axis layerTurn.sense else cubie

/-- A cubie after a move. -/
def apply (move : Move) (cubie : Cubie) : Cubie :=
  move.quarterTurns.repeat (quarter move.turn) cubie

/-- Whether a cubie shows no color twice. -/
def hasUniqueColors (cubie : Cubie) : Bool :=
  cubie.facelets.colors.Nodup

/-- A sticker as the letter of its face and the letter of its color. -/
def stickerText (sticker : Face × Color) : String :=
  sticker.1.letter.toString ++ ":" ++ sticker.2.letter.toString

/-- A cubie as its position followed by its stickers. -/
def text (cubie : Cubie) : String :=
  cubie.position.text ++ String.join (cubie.facelets.toList.map fun sticker =>
    " " ++ stickerText sticker)

@[simp]
theorem facelet_turn (cubie : Cubie) (axis : Axis) (sense : Sense) (face : Face) :
    (cubie.turn axis sense).facelet (face.turn axis sense) = cubie.facelet face := by
  simp [facelet, turn]

@[simp]
theorem turn_turn_reverse (cubie : Cubie) (axis : Axis) (sense : Sense) :
    (cubie.turn axis sense).turn axis sense.reverse = cubie := by
  simp [turn]

/-- Two quarter turns of a cubie one way are two quarter turns the other way. -/
theorem half_turn (cubie : Cubie) (axis : Axis) (sense : Sense) :
    (cubie.turn axis sense).turn axis sense =
      (cubie.turn axis sense.reverse).turn axis sense.reverse := by
  simp only [turn]
  rw [Position.half_turn, Facelets.half_turn]

end Cubie

end LastLayer
