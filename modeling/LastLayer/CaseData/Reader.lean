import LastLayer.CaseData
import LastLayer.Json.Reader

/-!
# Reading collections of cases

A collection is read from JSON text: an object with the key `groups`, whose groups are objects with
the keys `name` and `cases`. Objects may also be given as arrays of the values of these keys.
Missing values are empty.

The document is read from front to back, and the first fault is the one reported. A known key must
not stand twice. The value of an unknown key need only be well-formed: its numbers may be too great,
its strings may hold half of a surrogate pair, and it may be nested to any depth. A value of the
wrong type is reported without a look inside it.
-/

namespace LastLayer.CaseData

open Json

/-- Why a text is no collection of cases. -/
inductive ReadError where
  /-- The text is not JSON, or holds a number or a string without a value, or is nested too
  deeply. -/
  | malformed
  /-- The text is JSON of the wrong shape. -/
  | mismatch (error : DataError)

/-- The depth to which the entries of a group may be nested: a collection, its list of groups, a
group and its list of cases are around them. -/
def entryDepth : Nat := maxDepth - 4

/-- The depth to which the name of a group may be nested: all but the list of cases are around
it. -/
def nameDepth : Nat := maxDepth - 3

/-- The error of a value that should have been something else. -/
def unexpected (tree : Tree) (expected : Expected) : ReadError :=
  match tree.surface? with
  | none => .malformed
  | some value => .mismatch (.unexpected value expected)

/-- What stands or does not stand in a text, or the error of a malformed one. -/
def orMalformed {α : Type} (value : Option α) : Except ReadError α :=
  match value with
  | none => .error .malformed
  | some value => .ok value

/-- The name of a group: any scalar, null being the empty name. -/
def readName (tree : Tree) : Except ReadError String := do
  let value ← orMalformed (tree.value? nameDepth)
  if value.isScalar then
    return value.scalarText?.getD ""
  else
    throw (.mismatch (.textExpected value))

/-- The entries of a group. -/
def readEntries : Tree → Except ReadError (List Json)
  | .array items => orMalformed (Tree.values? entryDepth items)
  | tree => .error (unexpected tree .sequence)

/-- A value that has not been read yet; the key must not stand twice. -/
def readOnce {α : Type} (key : String) (previous : Option α) (read : Except ReadError α) :
    Except ReadError (Option α) :=
  match previous with
  | some _ => .error (.mismatch (.duplicateField key))
  | none => read.map some

/-- Read one more member of a group, given what has been read of its name and its entries. -/
def readGroupMember (previous : Option String × Option (List Json)) (member : List Piece × Tree) :
    Except ReadError (Option String × Option (List Json)) := do
  let key ← orMalformed (Piece.text? member.1)
  if key = "name" then
    return (← readOnce key previous.1 (readName member.2), previous.2)
  else if key = "cases" then
    return (previous.1, ← readOnce key previous.2 (readEntries member.2))
  else
    return previous

/-- A group of cases. -/
def readGroup : Tree → Except ReadError CaseGroup
  | .object members => do
    let (name, entries) ← members.foldlM readGroupMember (none, none)
    return .ofEntries (name.getD "") (entries.getD [])
  | .array [] => return .ofEntries "" []
  | .array [name] => return .ofEntries (← readName name) []
  | .array (name :: entries :: rest) => do
    let group := CaseGroup.ofEntries (← readName name) (← readEntries entries)
    if rest.isEmpty then return group else throw .malformed
  | tree => .error (unexpected tree .group)

/-- A list of groups. -/
def readGroups : Tree → Except ReadError (List CaseGroup)
  | .array items => items.mapM readGroup
  | tree => .error (unexpected tree .sequence)

/-- Read one more member of a collection, given what has been read of its groups. -/
def readMember (previous : Option (List CaseGroup)) (member : List Piece × Tree) :
    Except ReadError (Option (List CaseGroup)) := do
  let key ← orMalformed (Piece.text? member.1)
  if key = "groups" then
    readOnce key previous (readGroups member.2)
  else
    return previous

/-- A collection of cases. -/
def ofTree : Tree → Except ReadError CaseData
  | .object members => do
    let groups ← members.foldlM readMember none
    return ⟨groups.getD []⟩
  | .array [] => return ⟨[]⟩
  | .array (groups :: rest) => do
    let data : CaseData := ⟨← readGroups groups⟩
    if rest.isEmpty then return data else throw .malformed
  | tree => .error (unexpected tree .document)

/-- The collection that a text stands for. -/
def parse (text : String) : Except ReadError CaseData := do
  ofTree (← orMalformed (Tree.parse? text))

end LastLayer.CaseData
