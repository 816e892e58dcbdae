import LastLayer.Json.Token

/-!
# The grammar of JSON

A tree is a JSON value as it is written: its arrays, objects and keys are known, but its numbers and
strings have not been given a meaning. Trees are built from tokens one by one. The builder keeps the
arrays and objects that are still open on a stack, so they may be nested to any depth.
-/

namespace LastLayer.Json

/-- A JSON value as it is written. -/
inductive Tree where
  | null
  | bool (value : Bool)
  | number (text : NumberText)
  | string (pieces : List Piece)
  | array (items : List Tree)
  | object (members : List (List Piece × Tree))

namespace Tree

/-- An array or object that waits for one of its values. What it holds so far is given last one
first. -/
inductive Frame where
  /-- An array that waits for an item. -/
  | item (items : List Tree)
  /-- An object that waits for the value of a key. -/
  | member (members : List (List Piece × Tree)) (key : List Piece)

/-- What has been read of the innermost open value, and so what may come next. -/
inductive Awaiting where
  /-- Nothing: a value comes next. -/
  | value
  /-- An opening bracket. -/
  | itemOrEnd
  /-- An array up to and with an item. -/
  | afterItem (items : List Tree)
  /-- An opening brace. -/
  | keyOrEnd
  /-- An object up to and with a comma. -/
  | key (members : List (List Piece × Tree))
  /-- An object up to and with a key. -/
  | colon (members : List (List Piece × Tree)) (key : List Piece)
  /-- An object up to and with a member. -/
  | afterMember (members : List (List Piece × Tree))
  /-- The whole text. -/
  | done (tree : Tree)

/-- A tree under construction. -/
structure Builder where
  /-- The arrays and objects around the innermost open value, innermost first. -/
  frames : List Frame
  /-- The state of the innermost open value. -/
  awaiting : Awaiting

namespace Builder

/-- Nothing has been read. -/
def start : Builder := ⟨[], .value⟩

/-- Put a finished value where it belongs. -/
def complete (tree : Tree) : List Frame → Builder
  | [] => ⟨[], .done tree⟩
  | .item items :: frames => ⟨frames, .afterItem (tree :: items)⟩
  | .member members key :: frames => ⟨frames, .afterMember ((key, tree) :: members)⟩

/-- Start a value with its first token. -/
def open? (frames : List Frame) : Token → Option Builder
  | .null => some (complete .null frames)
  | .bool value => some (complete (.bool value) frames)
  | .number text => some (complete (.number text) frames)
  | .string pieces => some (complete (.string pieces) frames)
  | .openBracket => some ⟨frames, .itemOrEnd⟩
  | .openBrace => some ⟨frames, .keyOrEnd⟩
  | .closeBracket | .closeBrace | .comma | .colon => none

/-- Take one more token. -/
def step? (builder : Builder) (token : Token) : Option Builder :=
  match builder.awaiting, token with
  | .value, token => open? builder.frames token
  | .itemOrEnd, .closeBracket => some (complete (.array []) builder.frames)
  | .itemOrEnd, token => open? (.item [] :: builder.frames) token
  | .afterItem items, .comma => some ⟨.item items :: builder.frames, .value⟩
  | .afterItem items, .closeBracket => some (complete (.array items.reverse) builder.frames)
  | .keyOrEnd, .closeBrace => some (complete (.object []) builder.frames)
  | .keyOrEnd, .string key => some ⟨builder.frames, .colon [] key⟩
  | .key members, .string key => some ⟨builder.frames, .colon members key⟩
  | .colon members key, .colon => some ⟨.member members key :: builder.frames, .value⟩
  | .afterMember members, .comma => some ⟨builder.frames, .key members⟩
  | .afterMember members, .closeBrace =>
    some (complete (.object members.reverse) builder.frames)
  | _, _ => none

/-- The finished tree. -/
def finish? (builder : Builder) : Option Tree :=
  match builder.awaiting with
  | .done tree => some tree
  | _ => none

end Builder

/-- The tree of a list of tokens. -/
def ofTokens? (tokens : List Token) : Option Tree :=
  (tokens.foldlM Builder.step? Builder.start).bind Builder.finish?

/-- The tree of a text. -/
def parse? (text : String) : Option Tree :=
  (Token.scan? text.toList).bind ofTokens?

end Tree

end LastLayer.Json
