import LastLayer.CaseData
import LastLayer.Diagram
import Std.Data.HashMap

/-!
# Listing cases with their patterns

A listing shows the groups of a collection one after the other, and under each case its texts and the
drawing of its pattern. Cases with the same moves share one pattern, which is found only once and
then kept.

A listing is the printed lines only, without log records. Left out are the records that an entry of
a group has been skipped because it is no case, and that the plain pattern is used because the moves
of a case cannot be read. A skipped entry has no line in the listing. Moves that cannot be read have
the drawing of the plain pattern; the record of them would be made when that pattern is found, and
not again when it is looked up.
-/

namespace LastLayer

/-- The patterns found so far, by the text of their algorithms. -/
abbrev PatternCache := Std.HashMap String Pattern

/-- The pattern of an algorithm, looked up or found and kept. -/
def PatternCache.fetch (cache : PatternCache) (text : String) : Pattern × PatternCache :=
  match cache[text]? with
  | some pattern => (pattern, cache)
  | none =>
    let pattern := Pattern.previewOrPlain text
    (pattern, cache.insert text pattern)

/-- The lines about a case whose pattern is known. -/
def Case.lines (entry : Case) (pattern : Pattern) : List String :=
  let setup := entry.setupSequence
  [entry.title,
    "  Setup: " ++ (if setup.isEmpty then "None" else setup),
    "  Standard Alg: " ++ entry.solutionSequence,
    "  Notation: " ++ entry.notationLabel ++ "  probability = " ++ entry.probabilityLabel] ++
    pattern.lines.map fun line => "    " ++ line

namespace Listing

/-- The lines about some cases, and the patterns known after them. -/
def caseLines (cache : PatternCache) : List Case → List String × PatternCache
  | [] => ([], cache)
  | entry :: entries =>
    let (pattern, cache) := cache.fetch entry.previewAlgorithm
    let (lines, cache) := caseLines cache entries
    (entry.lines pattern ++ lines, cache)

/-- The lines about some groups, and the patterns known after them. -/
def groupLines (cache : PatternCache) : List CaseGroup → List String × PatternCache
  | [] => ([], cache)
  | group :: groups =>
    let (first, cache) := caseLines cache group.cases
    let (rest, cache) := groupLines cache groups
    (("== " ++ group.name) :: (first ++ "" :: rest), cache)

end Listing

/-- The listing of a collection, one line after the other. -/
def CaseData.listing (data : CaseData) : String :=
  String.join ((Listing.groupLines ∅ data.groups).1.map (· ++ "\n"))

end LastLayer
