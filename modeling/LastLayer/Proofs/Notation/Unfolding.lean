import LastLayer.Proofs.Notation.Fault
import Mathlib.Data.List.Infix

/-!
# Writing groups out

A group may be written out by hand, that is, replaced by as many copies of what stands between its
parentheses as its repeat count says. Wherever the group stands, a text that is read with the group is
read as the same moves without it.

What stands between the parentheses is a phrase by itself, if it closes the groups that it opens and
no others (`Expansion.exists_phrase_of_run`). So its copies put the same moves behind the sequence in
front of them as the group does when it closes (`Expansion.run_scan_copies`). Written out, the groups
within it close in the enclosing sequence, and count the moves in front of them against the limit. But
no sequence gets longer by that than the group has made it, and the group was within the limit.
-/

namespace LastLayer.Notation

/-! ## Balanced texts -/

/-- A text that closes the groups it opens, and no others. -/
structure Balanced (cs : List Char) : Prop where
  /-- No part of the text up to some place closes more groups than it opens. -/
  count_le : ∀ front, front <+: cs → front.count ')' ≤ front.count '('
  /-- The whole text closes as many groups as it opens. -/
  count_eq : cs.count '(' = cs.count ')'

instance (cs : List Char) : Decidable (Balanced cs) :=
  decidable_of_iff
    ((∀ front ∈ cs.inits, front.count ')' ≤ front.count '(') ∧ cs.count '(' = cs.count ')')
    ⟨fun h => ⟨fun front hfront => h.1 front ((List.mem_inits front cs).2 hfront), h.2⟩,
      fun h => ⟨fun front hfront => h.count_le front ((List.mem_inits front cs).1 hfront),
        h.count_eq⟩⟩

namespace Balanced

variable {first second rest rest' : List Char}

/-- The parenthesis behind a balanced text closes a group in front of it. -/
theorem not_append_closing (h : Balanced first) : ¬ Balanced (first ++ ')' :: rest) := by
  intro hlonger
  -- up to this parenthesis one more group is closed than is opened
  have hfront : first ++ [')'] <+: first ++ ')' :: rest := ⟨rest, by simp⟩
  have hcount := hlonger.count_le _ hfront
  have hmore : (first ++ [')']).count ')' = first.count ')' + 1 := by simp
  have hsame : (first ++ [')']).count '(' = first.count '(' := by simp
  rw [hmore, hsame, h.count_eq] at hcount
  omega

/-- The parenthesis that closes a group is told by the text: it is the first one behind which the
group is not balanced any more. -/
theorem eq_of_append_closing (hfirst : Balanced first) (hsecond : Balanced second)
    (h : first ++ ')' :: rest = second ++ ')' :: rest') : first = second := by
  -- the longer one would go on behind the parenthesis that ends the other
  rcases List.append_eq_append_iff.1 h with ⟨more, rfl, hmore⟩ | ⟨more, rfl, hmore⟩
  · cases more with
    | nil => rw [List.append_nil]
    | cons c more =>
      obtain rfl : ')' = c := (List.cons.inj hmore).1
      exact absurd hsecond hfirst.not_append_closing
  · cases more with
    | nil => rw [List.append_nil]
    | cons c more =>
      obtain rfl : ')' = c := (List.cons.inj hmore).1
      exact absurd hfirst hsecond.not_append_closing

end Balanced

/-- Whatever is read is balanced. -/
theorem balanced_of_parse {text : String} {algorithm : Algorithm}
    (h : Algorithm.parse text = .ok algorithm) : Balanced text.toList where
  count_le := by
    rintro front ⟨back, hback⟩
    have hrun := Algorithm.parse_eq_ok_iff.1 h
    rw [← hback] at hrun
    exact Expansion.count_le_of_run hrun
  count_eq := (Algorithm.count_eq_iff_of_run (Algorithm.parse_eq_ok_iff.1 h)).2 ⟨algorithm, h⟩

theorem Phrase.balanced_text {phrase : Phrase} (h : phrase.WithinLimits 0) :
    Balanced phrase.text := by
  have hparse := parse_of_phrase phrase String.toList_ofList.symm h
  rw [← String.toList_ofList (l := phrase.text)]
  exact balanced_of_parse hparse

namespace Expansion

/-! ## What a group is made of -/

/-- A balanced text between the parentheses of a group is a phrase. -/
theorem exists_phrase_of_run {sequence result : Array Move} {enclosing : List (Array Move)}
    {inner rest : List Char} (hinner : Balanced inner)
    (h : (Expansion.mk #[] (sequence :: enclosing)).run (Token.scan (inner ++ ')' :: rest)) =
      .ok ⟨result, []⟩) :
    ∃ phrase : Phrase, phrase.text = inner ∧ phrase.WithinLimits 0 := by
  have hfinish : ((Expansion.mk #[] (sequence :: enclosing)).run
      (Token.scan (inner ++ ')' :: rest))).bind finish = .ok result.toList := by
    rw [h]
    rfl
  -- the text is a phrase up to the parenthesis that closes the group
  obtain ⟨phrase, _, htext, hlimits, digits, behind, rest', rfl, -⟩ := derives_of_run hfinish
  exact ⟨phrase, (Phrase.balanced_text hlimits).eq_of_append_closing hinner htext.symm, hlimits⟩

/-! ## Copies of a phrase -/

theorem appendCopies_zero (sequence group : Array Move) :
    appendCopies sequence group 0 = sequence := by
  apply Array.toList_inj.1
  simp [toList_appendCopies]

theorem appendCopies_succ (sequence group : Array Move) (count : Nat) :
    appendCopies sequence group (count + 1) = appendCopies (sequence ++ group) group count := by
  apply Array.toList_inj.1
  simp [toList_appendCopies, List.replicate_succ]

/-- Copies of a phrase with spaces around them put the moves of the phrase behind the current sequence
as often, as long as all of them together are within the limit. -/
theorem run_scan_copies {phrase : Phrase} (hphrase : phrase.WithinLimits 0) (count : Nat)
    (expansion : Expansion) (rest : List Char)
    (hlimit : expansion.current.size + phrase.expansion.length * count ≤ maxMoves) :
    expansion.run (Token.scan
        ((List.replicate count (' ' :: (phrase.text ++ [' ']))).flatten ++ rest)) =
      (Expansion.mk (appendCopies expansion.current phrase.expansion.toArray count)
        expansion.enclosing).run (Token.scan rest) := by
  induction count generalizing expansion with
  | zero =>
    rw [appendCopies_zero]
    rfl
  | succ count ih =>
    rw [Nat.mul_succ] at hlimit
    have hfirst : phrase.WithinLimits expansion.current.size :=
      phrase.withinLimits_of_length_le hphrase (Nat.zero_le _) (by omega)
    have hspace : isSeparator ' ' = true := by decide
    have htext : (List.replicate (count + 1) (' ' :: (phrase.text ++ [' ']))).flatten ++ rest =
        ' ' :: (phrase.text ++ ' ' ::
          ((List.replicate count (' ' :: (phrase.text ++ [' ']))).flatten ++ rest)) := by
      simp [List.replicate_succ]
    -- the first copy is read behind the current sequence, and the others behind its moves
    rw [htext, run_scan_separator _ hspace,
      run_scan_text phrase expansion (delimited_cons.2 (by decide)) hfirst,
      run_scan_separator _ hspace, ih _ (by simp; omega), appendCopies_succ]

/-- A group that is read may be replaced by copies of what it is made of. -/
theorem run_scan_written_out {expansion : Expansion} {result : Array Move} {digits : Digits}
    {inner rest : List Char} (hinner : Balanced inner)
    (hrest : ∀ c ∈ rest.head?, c.isDigit = false)
    (h : expansion.run (Token.scan ('(' :: (inner ++ ')' :: (digits.val ++ rest)))) =
      .ok ⟨result, []⟩) :
    expansion.run (Token.scan
      ((List.replicate digits.count (' ' :: (inner ++ [' ']))).flatten ++ ' ' :: rest)) =
        .ok ⟨result, []⟩ := by
  rw [run_scan_opening] at h
  obtain ⟨phrase, rfl, hphrase⟩ := exists_phrase_of_run hinner h
  -- the group is read, and then it closes within the limit
  obtain ⟨htake, hdrop⟩ := takeWhile_append_eq digits.property hrest
  rw [run_scan_text phrase ⟨#[], expansion.current :: expansion.enclosing⟩
    (closed_closing _).delimited hphrase, run_scan_closing, htake, hdrop, bind_eq_ok_iff] at h
  obtain ⟨next, hclose, hnext⟩ := h
  obtain ⟨sequence, enclosing, hsame, -, hlimit, rfl⟩ := close_eq_ok_iff.1 hclose
  obtain ⟨rfl, rfl⟩ := List.cons.inj hsame
  rw [run_scan_copies hphrase _ _ _ (by simpa using hlimit), run_scan_separator _ (by decide)]
  simpa using hnext

end Expansion

end LastLayer.Notation

namespace LastLayer.Algorithm

open Notation

/-- A group may be written out by hand. If a text is read in which a balanced group stands anywhere, at
the top level or inside other groups, then the text with as many copies of the group in its place as
the repeat count says, each between spaces, is read as the same moves. -/
theorem groups_can_be_written_out (lead group rest : String) (digits : Digits)
    (algorithm : Algorithm) (hgroup : Balanced group.toList)
    (hrest : ∀ c ∈ rest.toList.head?, c.isDigit = false)
    (h : parse (lead ++ "(" ++ group ++ ")" ++ String.ofList digits.val ++ rest) =
      .ok algorithm) :
    parse (lead ++ String.join (List.replicate digits.count (" " ++ group ++ " ")) ++ " " ++
      rest) = .ok algorithm := by
  have hgrouped : (lead ++ "(" ++ group ++ ")" ++ String.ofList digits.val ++ rest).toList =
      lead.toList ++ '(' :: (group.toList ++ ')' :: (digits.val ++ rest.toList)) := by
    simp
  have hwritten :
      (lead ++ String.join (List.replicate digits.count (" " ++ group ++ " ")) ++ " " ++
        rest).toList = lead.toList ++
          ((List.replicate digits.count (' ' :: (group.toList ++ [' ']))).flatten ++
            ' ' :: rest.toList) := by
    simp [List.flatMap_def]
  have hdelimited :
      Delimited ((List.replicate digits.count (' ' :: (group.toList ++ [' ']))).flatten ++
        ' ' :: rest.toList) := by
    cases digits.count <;> exact delimited_cons.2 (by decide)
  rw [parse_eq_ok_iff, hgrouped, Token.scan_append _ (delimited_cons.2 (by decide)),
    Expansion.run_append_eq_ok_iff] at h
  obtain ⟨middle, hlead, hrun⟩ := h
  rw [parse_eq_ok_iff, hwritten, Token.scan_append _ hdelimited, Expansion.run_append_eq_ok_iff]
  exact ⟨middle, hlead, Expansion.run_scan_written_out hgroup hrest hrun⟩

/-- In a group of `U` and four times `R`, the turns of `R` are written as a group within a group. -/
theorem groups_can_be_written_out_within_a_group :
    Balanced "(R)2".toList ∧ (∀ c ∈ ")2 F".toList.head?, c.isDigit = false) ∧
    parse "(U((R)2)2)2 F" = .ok [⟨.U, .quarter⟩, ⟨.R, .quarter⟩, ⟨.R, .quarter⟩, ⟨.R, .quarter⟩,
      ⟨.R, .quarter⟩, ⟨.U, .quarter⟩, ⟨.R, .quarter⟩, ⟨.R, .quarter⟩, ⟨.R, .quarter⟩,
      ⟨.R, .quarter⟩, ⟨.F, .quarter⟩] ∧
    parse "(U (R)2  (R)2  )2 F" = parse "(U((R)2)2)2 F" := by
  have hgroup : Balanced "(R)2".toList := by decide
  have hrest : ∀ c ∈ ")2 F".toList.head?, c.isDigit = false := by
    rintro c ⟨⟩
    decide
  have hread : parse "(U((R)2)2)2 F" = .ok [⟨.U, .quarter⟩, ⟨.R, .quarter⟩, ⟨.R, .quarter⟩,
      ⟨.R, .quarter⟩, ⟨.R, .quarter⟩, ⟨.U, .quarter⟩, ⟨.R, .quarter⟩, ⟨.R, .quarter⟩,
      ⟨.R, .quarter⟩, ⟨.R, .quarter⟩, ⟨.F, .quarter⟩] := by decide +kernel
  have htwo : ∀ c ∈ ['2'], c.isDigit = true := by
    intro c hc
    rw [List.mem_singleton.1 hc]
    decide
  refine ⟨hgroup, hrest, hread, ?_⟩
  rw [hread]
  exact groups_can_be_written_out "(U" "(R)2" ")2 F" ⟨['2'], htwo⟩ _ hgroup hrest hread

end LastLayer.Algorithm
