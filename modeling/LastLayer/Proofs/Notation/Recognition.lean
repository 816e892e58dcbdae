import LastLayer.Proofs.Notation.Grammar
import Mathlib.Data.List.TakeWhile
import Mathlib.Logic.ExistsUnique

/-!
# Reading accepts the grammar

Reading scans a text from left to right and keeps the sequences that open groups interrupt. The main
statement says that this accepts just the texts that have a derivation within the limits, and
returns the expansion of the derivation.

One direction is an induction over derivations: reading the text of a phrase puts the expansion of
the phrase behind the current sequence (`Expansion.run_scan_text`). The other direction is an
induction over the text. In the middle of a text the groups that are open still have to be closed,
so what is left of the text is no phrase by itself; `Expansion.Derives` says what it is, level by
level, and every step of the reading is one of its rules.
-/

namespace LastLayer.Notation

/-! ## Single steps -/

namespace Expansion

variable (expansion : Expansion)

theorem run_scan_separator {c : Char} (h : isSeparator c = true) (cs : List Char) :
    expansion.run (Token.scan (c :: cs)) = expansion.run (Token.scan cs) := by
  rw [Token.scan_cons, Token.read_separator cs h]
  rfl

theorem run_scan_letter (letter : Letter) (cs : List Char) :
    expansion.run (Token.scan (letter.char :: cs)) =
      (Expansion.mk (expansion.current.push (Token.readMove letter cs).1) expansion.enclosing).run
        (Token.scan (Token.readMove letter cs).2) := by
  rw [Token.scan_cons, Token.read_letter]
  rfl

theorem run_scan_opening (cs : List Char) :
    expansion.run (Token.scan ('(' :: cs)) =
      (Expansion.mk #[] (expansion.current :: expansion.enclosing)).run (Token.scan cs) := by
  rw [Token.scan_cons, Token.read_opening]
  rfl

theorem run_scan_closing (cs : List Char) :
    expansion.run (Token.scan (')' :: cs)) =
      (expansion.close (cs.takeWhile Char.isDigit)).bind fun next =>
        next.run (Token.scan (cs.dropWhile Char.isDigit)) := by
  rw [Token.scan_cons, Token.read_closing]
  rfl

end Expansion

theorem repeatCount?_digits (digits : Digits) :
    repeatCount? digits.val = if digits.count < UInt64.size then some digits.count else none := by
  unfold repeatCount? Digits.count
  by_cases hempty : digits.val = []
  · simp [hempty, UInt64.size]
  · simp [hempty]

theorem size_appendCopies (sequence group : Array Move) (count : Nat) :
    (appendCopies sequence group count).size = sequence.size + group.size * count := by
  rw [← Array.length_toList, toList_appendCopies]
  simp [Nat.mul_comm]

/-- A group closes just if there is one and its repetition stays within the limits. -/
theorem Expansion.close_eq_ok_iff {expansion next : Expansion} {digits : Digits} :
    expansion.close digits.val = .ok next ↔
      ∃ sequence enclosing, expansion.enclosing = sequence :: enclosing ∧
        digits.count < UInt64.size ∧
        sequence.size + expansion.current.size * digits.count ≤ maxMoves ∧
        next = ⟨appendCopies sequence expansion.current digits.count, enclosing⟩ := by
  obtain ⟨current, enclosing⟩ := expansion
  cases enclosing with
  | nil => simp [close]
  | cons sequence enclosing =>
    simp only [close, repeatCount?_digits]
    by_cases hcount : digits.count < UInt64.size
    · by_cases hlength : sequence.size + current.size * digits.count ≤ maxMoves
      · simp only [if_pos hcount, if_pos hlength]
        constructor
        · rintro ⟨⟩
          exact ⟨sequence, enclosing, rfl, hcount, hlength, rfl⟩
        · rintro ⟨_, _, hsame, -, -, rfl⟩
          cases hsame
          rfl
      · simp only [if_pos hcount, if_neg hlength]
        constructor
        · rintro ⟨⟩
        · rintro ⟨_, _, hsame, -, hlength', -⟩
          cases hsame
          exact absurd hlength' hlength
    · simp only [if_neg hcount]
      constructor
      · rintro ⟨⟩
      · rintro ⟨_, _, -, hcount', -⟩
        exact absurd hcount' hcount

/-! ## What the grammar derives is read -/

/-- Reading the text of a phrase within the limits puts the moves that the phrase stands for behind
the current sequence. -/
theorem Expansion.run_scan_text (phrase : Phrase) (expansion : Expansion) {rest : List Char}
    (hrest : Delimited rest) (hlimits : phrase.WithinLimits expansion.current.size) :
    expansion.run (Token.scan (phrase.text ++ rest)) =
      (Expansion.mk (expansion.current ++ phrase.expansion.toArray) expansion.enclosing).run
        (Token.scan rest) := by
  induction phrase generalizing expansion rest with
  | empty => simp [Phrase.text, Phrase.expansion]
  | separator c hc phrase ih =>
    have hhead := expansion.run_scan_separator hc (phrase.text ++ rest)
    exact hhead.trans (ih expansion hrest hlimits)
  | move spelling phrase ih =>
    -- the letter is read with all its suffixes, for the text behind them is delimited
    rw [Phrase.text_move_append, run_scan_letter,
      readMove_suffix spelling (phrase.delimited_text_append hrest), ih _ hrest]
    · simp [Phrase.expansion]
    · simpa [Phrase.WithinLimits] using hlimits
  | group inner digits phrase ihInner ih =>
    obtain ⟨hinner, hcount, hlength, hlimits⟩ := hlimits
    have hdelimited : Delimited (phrase.text ++ rest) := phrase.delimited_text_append hrest
    obtain ⟨htake, hdrop⟩ := takeWhile_append_eq digits.property hdelimited.head_not_digit
    -- the group is read like a text of its own, then it closes behind what stood before it
    rw [Phrase.text_group_append, run_scan_opening,
      ihInner _ (closed_closing _).delimited (by simpa using hinner), run_scan_closing, htake, hdrop]
    have hclose : (Expansion.mk (#[] ++ inner.expansion.toArray)
        (expansion.current :: expansion.enclosing)).close digits.val =
        .ok ⟨appendCopies expansion.current (#[] ++ inner.expansion.toArray) digits.count,
          expansion.enclosing⟩ := by
      refine close_eq_ok_iff.2 ⟨expansion.current, expansion.enclosing, rfl, hcount, ?_, rfl⟩
      simpa using hlength
    rw [hclose]
    change (Expansion.mk (appendCopies expansion.current (#[] ++ inner.expansion.toArray)
      digits.count) expansion.enclosing).run (Token.scan (phrase.text ++ rest)) = _
    rw [ih _ hrest (by simpa [size_appendCopies] using hlimits)]
    have hcurrent : appendCopies expansion.current (#[] ++ inner.expansion.toArray) digits.count ++
        phrase.expansion.toArray =
        expansion.current ++ (Phrase.group inner digits phrase).expansion.toArray := by
      apply Array.toList_inj.1
      simp [toList_appendCopies, Phrase.expansion]
    rw [hcurrent]

/-- A text with a derivation within the limits is read as the expansion of the derivation. -/
theorem parse_of_phrase {text : String} (phrase : Phrase) (htext : phrase.text = text.toList)
    (hlimits : phrase.WithinLimits 0) : Algorithm.parse text = .ok phrase.expansion := by
  have hrun := Expansion.run_scan_text phrase .start delimited_nil hlimits
  rw [List.append_nil, htext] at hrun
  rw [Algorithm.parse, hrun]
  simp [Expansion.start, Expansion.finish, Except.bind]

/-! ## What is read is derived -/

/-- The suffixes that a move is read with are those of a spelling. -/
theorem exists_spelling (letter : Letter) (cs : List Char) :
    ∃ spelling : Spelling, spelling.letter = letter ∧
      spelling.move = (Token.readMove letter cs).1 ∧
      cs = spelling.suffix ++ (Token.readMove letter cs).2 := by
  -- what `accept` takes and what it leaves make up the text, for a letter as for a mark
  have hflag : ∀ (c : Char) (cs : List Char),
      cs = (if (accept (· == c) cs).1 then [c] else []) ++ (accept (· == c) cs).2 := by
    intro c cs
    cases cs with
    | nil => rfl
    | cons first cs =>
      by_cases hfirst : first = c
      · simp [accept, hfirst]
      · simp [accept, hfirst]
  have hprime : ∀ cs : List Char, ∃ prime : Option PrimeMark,
      prime.isSome = (accept isPrime cs).1 ∧
        cs = (prime.map PrimeMark.char).toList ++ (accept isPrime cs).2 := by
    intro cs
    cases cs with
    | nil => exact ⟨none, rfl, rfl⟩
    | cons first cs =>
      by_cases hfirst : isPrime first = true
      · have hmark : first = '\x27' ∨ first = '\x60' := by
          simpa [isPrime] using hfirst
        rcases hmark with rfl | rfl
        · exact ⟨some .apostrophe, rfl, rfl⟩
        · exact ⟨some .grave, rfl, rfl⟩
      · exact ⟨none, by simp [accept, hfirst], by simp [accept, hfirst]⟩
  obtain ⟨prime, hsome, hmark⟩ := hprime (accept (· == '2') (accept (· == 'w') cs).2).2
  refine ⟨⟨letter, (accept (· == 'w') cs).1, (accept (· == '2') (accept (· == 'w') cs).2).1, prime⟩,
    rfl, ?_, ?_⟩
  · simp only [Spelling.move, Token.readMove, hsome]
  · simp only [Spelling.suffix, Token.readMove, List.append_assoc]
    rw [← hmark, ← hflag '2', ← hflag 'w']

namespace Expansion

/-- The rest of a text completes a sequence to a result: it is empty if no group is open, and
otherwise it closes the innermost group and completes the sequence around it, to which a phrase may
still add. -/
def Completes : List (Array Move) → Algorithm → List Char → Algorithm → Prop
  | [], current, cs, result => cs = [] ∧ current = result
  | sequence :: enclosing, current, cs, result =>
    ∃ (digits : Digits) (phrase : Phrase) (rest : List Char),
      cs = ')' :: (digits.val ++ (phrase.text ++ rest)) ∧
      digits.count < UInt64.size ∧ sequence.size + current.length * digits.count ≤ maxMoves ∧
      phrase.WithinLimits (sequence.size + current.length * digits.count) ∧
      Completes enclosing
        (sequence.toList ++ (List.replicate digits.count current).flatten ++ phrase.expansion)
        rest result

/-- The rest of a text derives a result from an expansion: a phrase adds to the current sequence,
and what stands behind it completes that sequence. -/
def Derives (expansion : Expansion) (cs : List Char) (result : Algorithm) : Prop :=
  ∃ (phrase : Phrase) (rest : List Char),
    cs = phrase.text ++ rest ∧ phrase.WithinLimits expansion.current.size ∧
    Completes expansion.enclosing (expansion.current.toList ++ phrase.expansion) rest result

namespace Derives

variable {expansion next : Expansion} {cs : List Char} {result : Algorithm}

theorem nil (h : expansion.finish = .ok result) : expansion.Derives [] result := by
  obtain ⟨current, enclosing⟩ := expansion
  cases enclosing with
  | nil =>
    obtain rfl := Except.ok.inj h
    exact ⟨.empty, [], rfl, trivial, rfl, by simp [Phrase.expansion]⟩
  | cons _ _ => cases h

theorem separator {c : Char} (hc : isSeparator c = true) (h : expansion.Derives cs result) :
    expansion.Derives (c :: cs) result := by
  obtain ⟨phrase, rest, rfl, hlimits, hcompletes⟩ := h
  exact ⟨.separator c hc phrase, rest, rfl, hlimits, hcompletes⟩

theorem move (spelling : Spelling)
    (h : (Expansion.mk (expansion.current.push spelling.move) expansion.enclosing).Derives
      cs result) :
    expansion.Derives (spelling.letter.char :: (spelling.suffix ++ cs)) result := by
  obtain ⟨phrase, rest, rfl, hlimits, hcompletes⟩ := h
  refine ⟨.move spelling phrase, rest, (phrase.text_move_append spelling rest).symm, ?_, ?_⟩
  · simpa [Phrase.WithinLimits] using hlimits
  · simpa [Phrase.expansion] using hcompletes

theorem opening
    (h : (Expansion.mk #[] (expansion.current :: expansion.enclosing)).Derives cs result) :
    expansion.Derives ('(' :: cs) result := by
  obtain ⟨inner, _, rfl, hinner, digits, phrase, rest, rfl, hcount, hlength, hlimits,
    hcompletes⟩ := h
  -- the phrase behind the closing parenthesis continues the sequence in front of the group
  refine ⟨.group inner digits phrase, rest, (Phrase.text_group_append inner digits phrase rest).symm,
    ?_, ?_⟩
  · simpa [Phrase.WithinLimits] using ⟨hinner, hcount, hlength, hlimits⟩
  · simpa [Phrase.expansion] using hcompletes

theorem closing (digits : Digits) (hclose : expansion.close digits.val = .ok next)
    (h : next.Derives cs result) : expansion.Derives (')' :: (digits.val ++ cs)) result := by
  obtain ⟨sequence, enclosing, henclosing, hcount, hlength, rfl⟩ := close_eq_ok_iff.1 hclose
  obtain ⟨phrase, rest, rfl, hlimits, hcompletes⟩ := h
  -- nothing more is added to the group; what follows it is added to the sequence around it
  refine ⟨.empty, ')' :: (digits.val ++ (phrase.text ++ rest)), rfl, trivial, ?_⟩
  rw [henclosing]
  refine ⟨digits, phrase, rest, rfl, hcount, ?_, ?_, ?_⟩
  · simpa [Phrase.expansion] using hlength
  · simpa [Phrase.expansion, size_appendCopies] using hlimits
  · simpa [Phrase.expansion, toList_appendCopies] using hcompletes

end Derives

/-- Whatever is read to the end was derived. -/
theorem derives_of_run {expansion : Expansion} {cs : List Char} {result : Algorithm}
    (h : (expansion.run (Token.scan cs)).bind finish = .ok result) :
    expansion.Derives cs result := by
  -- a step may take several characters, so the induction is on the length of the text
  induction hlength : cs.length using Nat.strongRecOn generalizing expansion cs with
  | ind length ih =>
    subst hlength
    cases cs with
    | nil =>
      rw [Token.scan_nil, run_nil] at h
      exact Derives.nil h
    | cons c cs =>
      -- the first character decides which item is read
      by_cases hseparator : isSeparator c = true
      · rw [run_scan_separator expansion hseparator] at h
        exact Derives.separator hseparator (ih _ (Nat.lt_succ_self _) h rfl)
      by_cases hopening : c = '('
      · rw [hopening, run_scan_opening] at h
        rw [hopening]
        exact Derives.opening (ih _ (Nat.lt_succ_self _) h rfl)
      by_cases hclosing : c = ')'
      · rw [hclosing, run_scan_closing] at h
        cases hclose : expansion.close (cs.takeWhile Char.isDigit) with
        | error error =>
          -- the fault of the group is the outcome of the whole reading
          rw [hclose] at h
          cases h
        | ok next =>
          rw [hclose] at h
          have hdigits : ∀ c ∈ cs.takeWhile Char.isDigit, c.isDigit = true :=
            fun _ hc => List.mem_takeWhile_imp hc
          have hshort : (cs.dropWhile Char.isDigit).length < (c :: cs).length :=
            Nat.lt_succ_of_le (List.dropWhile_suffix Char.isDigit).length_le
          have hrest := Derives.closing ⟨_, hdigits⟩ hclose (ih _ hshort h rfl)
          rwa [List.takeWhile_append_dropWhile, ← hclosing] at hrest
      cases hletter : Letter.ofChar? c with
      | some letter =>
        obtain rfl := Letter.ofChar?_eq_some_iff.1 hletter
        obtain ⟨spelling, rfl, hmove, hcs⟩ := exists_spelling letter cs
        rw [run_scan_letter, ← hmove] at h
        have hshort : (Token.readMove spelling.letter cs).2.length <
            (spelling.letter.char :: cs).length :=
          Nat.lt_succ_of_le (Token.length_readMove_le spelling.letter cs)
        have hrest := Derives.move spelling (ih _ hshort h rfl)
        rwa [← hcs] at hrest
      | none =>
        -- no item starts with the character, so reading stops with an error
        rw [Token.scan_cons, Token.read_unknown cs hseparator hopening hclosing hletter] at h
        cases h

end Expansion

/-- A text that is read has a derivation within the limits, and stands for its expansion. -/
theorem exists_phrase_of_parse {text : String} {algorithm : Algorithm}
    (h : Algorithm.parse text = .ok algorithm) :
    ∃ phrase : Phrase, phrase.text = text.toList ∧ phrase.WithinLimits 0 ∧
      phrase.expansion = algorithm := by
  obtain ⟨phrase, rest, htext, hlimits, hrest, hexpansion⟩ := Expansion.derives_of_run h
  refine ⟨phrase, ?_, hlimits, hexpansion⟩
  rw [htext, hrest, List.append_nil]

end LastLayer.Notation

namespace LastLayer.Algorithm

open Notation

/-- A text is read just if it has a derivation whose counts and lengths are within the limits. A text
has no two derivations, and what is read is the expansion of the one it has. -/
theorem parse_eq_ok_iff_derivation (text : String) (algorithm : Algorithm) :
    parse text = .ok algorithm ↔
      ∃! phrase : Phrase, phrase.text = text.toList ∧ phrase.WithinLimits 0 ∧
        phrase.expansion = algorithm := by
  constructor
  · intro h
    obtain ⟨phrase, htext, hlimits, hexpansion⟩ := exists_phrase_of_parse h
    refine ⟨phrase, ⟨htext, hlimits, hexpansion⟩, ?_⟩
    rintro other ⟨hother, -, -⟩
    exact Phrase.text_injective (hother.trans htext.symm)
  · rintro ⟨phrase, ⟨htext, hlimits, rfl⟩, -⟩
    exact parse_of_phrase phrase htext hlimits

end LastLayer.Algorithm
