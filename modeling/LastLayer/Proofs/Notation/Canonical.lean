import LastLayer.Proofs.Notation.Recognition
import LastLayer.Proofs.Reachable

/-!
# Canonical notation

What `Algorithm.text` writes is derived by the grammar: every move in its plainest spelling, and one
space between two moves (`Phrase.canonical`). There are no groups in it, so no limit applies, however
long the algorithm is, and reading it gives the algorithm back (`Algorithm.parse_text`).

So the canonical notation of a text stands for the moves of the text and for nothing else: texts have
the same canonical notation just if they are read as the same moves. The inverse of a text is written
in canonical notation as well, so it can be read whatever its length, and inverted again.
-/

namespace LastLayer

namespace Notation

/-- The plainest spelling of a move: its own letter, and at most one suffix. -/
def Spelling.canonical (move : Move) : Spelling where
  letter := move.letter
  wide := false
  half := move.amount = .half
  prime := if move.amount = .prime then some .apostrophe else none

theorem Spelling.move_canonical (move : Move) : (canonical move).move = move := by
  obtain ⟨letter, amount⟩ := move
  cases amount <;> rfl

theorem Spelling.text_canonical (move : Move) : (canonical move).text = move.text.toList := by
  obtain ⟨letter, amount⟩ := move
  rw [Move.text, String.toList_append, Char.toString, String.toList_singleton]
  cases amount <;> simp [canonical, text, suffix, Amount.suffix, PrimeMark.char]

namespace Phrase

/-- The derivation of the canonical notation of an algorithm. -/
def canonical : Algorithm → Phrase
  | [] => .empty
  | [last] => .move (.canonical last) .empty
  | first :: next :: moves =>
    .move (.canonical first) (.separator ' ' (by decide) (canonical (next :: moves)))

theorem text_canonical (algorithm : Algorithm) :
    (canonical algorithm).text = algorithm.text.toList := by
  rw [Algorithm.text, String.toList_intercalate, List.map_map]
  induction algorithm using canonical.induct with
  | case1 => rfl
  | case2 last =>
    rw [canonical, text, text, List.append_nil, Spelling.text_canonical, List.map_singleton,
      List.intercalate_singleton]
    rfl
  | case3 first next moves ih =>
    rw [canonical, text, text, ih, Spelling.text_canonical]
    simp [List.intercalate_cons_cons]

theorem expansion_canonical (algorithm : Algorithm) :
    (canonical algorithm).expansion = algorithm := by
  induction algorithm using canonical.induct with
  | case1 => rfl
  | case2 last => rw [canonical, expansion, expansion, Spelling.move_canonical]
  | case3 first next moves ih =>
    rw [canonical, expansion, expansion, ih, Spelling.move_canonical]

/-- Only groups are limited, and canonical notation has none. -/
theorem withinLimits_canonical (algorithm : Algorithm) (before : Nat) :
    (canonical algorithm).WithinLimits before := by
  induction algorithm using canonical.induct generalizing before with
  | case1 => trivial
  | case2 last => trivial
  | case3 first next moves ih => exact ih (before + 1)

end Phrase

end Notation

namespace Algorithm

open Notation

/-- Canonical notation is read as the algorithm that was written. -/
theorem parse_text (algorithm : Algorithm) : parse algorithm.text = .ok algorithm := by
  have hparse := parse_of_phrase (Phrase.canonical algorithm) (Phrase.text_canonical algorithm)
    (Phrase.withinLimits_canonical algorithm 0)
  rwa [Phrase.expansion_canonical] at hparse

theorem text_injective {first second : Algorithm} (h : first.text = second.text) :
    first = second := by
  have hparse := parse_text first
  rw [h, parse_text] at hparse
  exact (Except.ok.inj hparse).symm

theorem normalize_of_parse {text : String} {algorithm : Algorithm}
    (h : parse text = .ok algorithm) : normalize text = .ok algorithm.text := by
  rw [normalize, h]
  rfl

/-- Every algorithm is read back from its canonical notation. So writing a text that can be read in
canonical notation, and writing the outcome anew, changes nothing any more; and two texts that can be
read have the same canonical notation just if they are read as the same moves. -/
theorem canonical_notation_decides :
    (∀ algorithm : Algorithm, parse algorithm.text = .ok algorithm) ∧
    (∀ text algorithm, parse text = .ok algorithm →
      ∃ canonical, normalize text = .ok canonical ∧ normalize canonical = .ok canonical) ∧
    ∀ text text' algorithm algorithm', parse text = .ok algorithm → parse text' = .ok algorithm' →
      (normalize text = normalize text' ↔ algorithm = algorithm') := by
  refine ⟨parse_text, ?_, ?_⟩
  · intro text algorithm h
    exact ⟨algorithm.text, normalize_of_parse h, normalize_of_parse (parse_text algorithm)⟩
  · intro text text' algorithm algorithm' h h'
    rw [normalize_of_parse h, normalize_of_parse h']
    constructor
    · intro hsame
      exact text_injective (Except.ok.inj hsame)
    · rintro rfl
      rfl

/-- Wide turns, marks and groups are spelled in many ways, but the moves decide. -/
theorem canonical_notation_of_spellings :
    parse "(Rw\x60 U2\x27)2" = .ok [⟨.r, .prime⟩, ⟨.U, .half⟩, ⟨.r, .prime⟩, ⟨.U, .half⟩] ∧
    parse "r\x27,U2(r\x27)U2" = .ok [⟨.r, .prime⟩, ⟨.U, .half⟩, ⟨.r, .prime⟩, ⟨.U, .half⟩] ∧
    (∃ canonical, normalize "(Rw\x60 U2\x27)2" = .ok canonical ∧
      normalize canonical = .ok canonical) ∧
    normalize "(Rw\x60 U2\x27)2" = normalize "r\x27,U2(r\x27)U2" := by
  have hgroup : parse "(Rw\x60 U2\x27)2" =
      .ok [⟨.r, .prime⟩, ⟨.U, .half⟩, ⟨.r, .prime⟩, ⟨.U, .half⟩] := by decide +kernel
  have hplain : parse "r\x27,U2(r\x27)U2" =
      .ok [⟨.r, .prime⟩, ⟨.U, .half⟩, ⟨.r, .prime⟩, ⟨.U, .half⟩] := by decide +kernel
  refine ⟨hgroup, hplain, canonical_notation_decides.2.1 _ _ hgroup, ?_⟩
  exact (canonical_notation_decides.2.2 _ _ _ _ hgroup hplain).2 rfl

/-! ## Inverses -/

theorem invert_of_parse {text : String} {algorithm : Algorithm}
    (h : parse text = .ok algorithm) : invert text = .ok algorithm.inverse.text := by
  rw [invert, h]
  rfl

/-- A text has the same fault for both. -/
theorem invert_eq_error_iff {text : String} {error : Notation.Error} :
    invert text = .error error ↔ normalize text = .error error := by
  rw [invert, normalize]
  cases parse text with
  | error fault => exact Iff.rfl
  | ok algorithm => exact iff_of_false nofun nofun

/-- Inverting a text fails just if writing it in canonical notation does, with the same fault. A text
that can be read is inverted to one that is read as the inverse algorithm and is in canonical notation
already; inverting that gives the canonical notation of the text, and the canonical notation has the
same inverse as the text itself. The moves of the two texts, one after the other, leave every cube as
it was. -/
theorem inversion_undoes_itself (text : String) :
    (∀ error, invert text = .error error ↔ normalize text = .error error) ∧
    ∀ algorithm, parse text = .ok algorithm → ∃ inverted canonical,
      invert text = .ok inverted ∧ normalize text = .ok canonical ∧
      parse inverted = .ok algorithm.inverse ∧ normalize inverted = .ok inverted ∧
      invert inverted = .ok canonical ∧ invert canonical = .ok inverted ∧
      ∀ cube : Cube, (cube.applyAll algorithm).applyAll algorithm.inverse = cube := by
  refine ⟨fun error => invert_eq_error_iff, fun algorithm h => ?_⟩
  -- the inverse is written in canonical notation, which is read as what has been written
  have hinverted : parse algorithm.inverse.text = .ok algorithm.inverse := parse_text _
  have hback := invert_of_parse hinverted
  rw [inverse_inverse] at hback
  exact ⟨algorithm.inverse.text, algorithm.text, invert_of_parse h, normalize_of_parse h, hinverted,
    normalize_of_parse hinverted, hback, invert_of_parse (parse_text algorithm),
    fun cube => cube.applyAll_inverse algorithm⟩

/-- A group of wide turns and marked half turns is inverted to plain moves, and these back to the plain
moves of the group. -/
theorem inversion_undoes_itself_of_group :
    parse "(Rw\x60 U2\x27)2" = .ok [⟨.r, .prime⟩, ⟨.U, .half⟩, ⟨.r, .prime⟩, ⟨.U, .half⟩] ∧
    invert "(Rw\x60 U2\x27)2" = .ok "U2 r U2 r" ∧
    invert "U2 r U2 r" = normalize "(Rw\x60 U2\x27)2" := by
  have hread : parse "(Rw\x60 U2\x27)2" =
      .ok [⟨.r, .prime⟩, ⟨.U, .half⟩, ⟨.r, .prime⟩, ⟨.U, .half⟩] := by decide +kernel
  have hplain : invert "(Rw\x60 U2\x27)2" = .ok "U2 r U2 r" := by decide +kernel
  obtain ⟨inverted, canonical, hinverted, hcanonical, -, -, hback, -⟩ :=
    (inversion_undoes_itself _).2 _ hread
  obtain rfl : "U2 r U2 r" = inverted := Except.ok.inj (hplain.symm.trans hinverted)
  exact ⟨hread, hplain, hback.trans hcanonical.symm⟩

end Algorithm

end LastLayer
