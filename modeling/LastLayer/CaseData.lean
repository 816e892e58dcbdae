import LastLayer.Case.Reader

/-!
# Collections of cases

A collection is a list of named groups of cases. The entries of a group are read one by one: an
entry that is no case is put aside with its place in the group, and does not disturb the others.
-/

namespace LastLayer

/-- An entry of a group that is no case. -/
structure MalformedCase where
  /-- The place of the entry in its group, counted from one. -/
  position : Nat
  /-- Why the entry is no case. -/
  error : DataError

/-- A named group of cases. -/
structure CaseGroup where
  /-- The name of the group. -/
  name : String
  /-- The cases, in the order of their entries. -/
  cases : List Case
  /-- The entries that are no cases, in order. -/
  malformed : List MalformedCase

namespace CaseGroup

/-- The malformed case that an entry at a given place is, if it is no case. -/
def malformedEntry? (entry : Json) (position : Nat) : Option MalformedCase :=
  match Case.ofJson entry with
  | .error error => some ⟨position, error⟩
  | .ok _ => none

/-- The group with a given name and given entries. -/
def ofEntries (name : String) (entries : List Json) : CaseGroup where
  name := name
  cases := entries.filterMap fun entry => (Case.ofJson entry).toOption
  malformed := (entries.zipIdx 1).filterMap fun (entry, position) => malformedEntry? entry position

end CaseGroup

/-- A collection of cases. -/
structure CaseData where
  /-- The groups, in order. -/
  groups : List CaseGroup

/-- Every case of a collection, paired with its group. -/
def CaseData.cases (data : CaseData) : List (CaseGroup × Case) :=
  data.groups.flatMap fun group => group.cases.map fun entry => (group, entry)

end LastLayer
