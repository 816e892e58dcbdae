import LastLayer.Proofs.Notation.Fault

/-!
# How many moves a text has

Every move of a text has one letter, and nothing else is a letter (`Token.countP_isMove_scan`). So a
text without groups is read as one move for each of its letters
(`Algorithm.length_of_parse_of_notMem`).

Groups may repeat their moves, but when one closes, the sequence around it is within the limit.
Behind the last group there are only moves; therefore what is read exceeds the limit by the letters
that stand there at most (`Algorithm.length_of_parse_le`).
-/

namespace LastLayer.Notation

/-! ## The moves of a text -/

/-- The number of characters of a text that are move letters. -/
def letterCount (cs : List Char) : Nat :=
  cs.countP fun c => (Letter.ofChar? c).isSome

theorem letterCount_append (first second : List Char) :
    letterCount (first ++ second) = letterCount first + letterCount second :=
  List.countP_append

theorem letterCount_eq_zero {cs : List Char} (h : ∀ c ∈ cs, ∀ letter : Letter, letter.char ≠ c) :
    letterCount cs = 0 := by
  refine List.countP_eq_zero.2 fun c hc hletter => ?_
  obtain ⟨letter, hchar⟩ := Option.isSome_iff_exists.1 hletter
  exact h c hc letter (Letter.ofChar?_eq_some_iff.1 hchar)

theorem Digits.letterCount_eq_zero (digits : Digits) : letterCount digits.val = 0 := by
  refine Notation.letterCount_eq_zero fun c hc letter hletter => ?_
  have hdigit : letter.char.isDigit = true := hletter ▸ digits.property c hc
  cases letter <;> exact absurd hdigit (by decide)

/-- No suffix is a letter, so a spelling has one. -/
theorem Spelling.letterCount_text (spelling : Spelling) : letterCount spelling.text = 1 := by
  obtain ⟨letter, wide, half, prime⟩ := spelling
  have hsuffix : letterCount (Spelling.mk letter wide half prime).suffix = 0 := by
    cases wide <;> cases half <;> rcases prime with _ | _ | _ <;> rfl
  rw [text, letterCount, List.countP_cons_of_pos (by simp)]
  rw [letterCount] at hsuffix
  rw [hsuffix]

namespace Token

/-- Whether a token is a move. -/
def isMove : Token → Bool
  | .move _ => true
  | _ => false

/-- Every move letter of a text is the letter of one of its moves. -/
theorem countP_isMove_scan (cs : List Char) : (scan cs).countP isMove = letterCount cs := by
  have hother : ∀ {c : Char} (cs : List Char), (∀ letter : Letter, letter.char ≠ c) →
      letterCount (c :: cs) = letterCount cs := by
    intro c cs hc
    have hsingle : letterCount [c] = 0 := by
      refine letterCount_eq_zero fun c' hc' => ?_
      rw [List.mem_singleton.1 hc']
      exact hc
    have happend := letterCount_append [c] cs
    rwa [hsingle, Nat.zero_add] at happend
  induction cs using item_induction with
  | nil => simp [letterCount]
  | separator c cs h ih =>
    rw [scan_cons, read_separator cs h, hother, ← ih]
    · rfl
    · rintro letter rfl
      cases letter <;> exact absurd h (by decide)
  | opening cs ih =>
    rw [scan_cons, read_opening, hother cs fun letter => by cases letter <;> decide, ← ih]
    rfl
  | closing digits rest hrest ih =>
    rw [scan_closing digits hrest, hother _ fun letter => by cases letter <;> decide,
      letterCount_append, digits.letterCount_eq_zero, Nat.zero_add, ← ih]
    rfl
  | move spelling rest hrest ih =>
    rw [scan_spelling spelling hrest, letterCount_append, spelling.letterCount_text, ← ih,
      List.countP_cons_of_pos rfl, Nat.add_comm]
  | unknown c cs hseparator hopening hclosing hletter ih =>
    rw [scan_cons, read_unknown cs hseparator hopening hclosing hletter, hother, ← ih]
    · rfl
    · rintro letter rfl
      rw [Letter.ofChar?_char] at hletter
      cases hletter

end Token

/-! ## Lengths of finished sequences -/

namespace Expansion

/-- If no group closes any more, then what is left of a text that is read are its moves. -/
theorem size_of_run_to_end {expansion : Expansion} {tokens : List Token} {result : Array Move}
    (h : expansion.run tokens = .ok ⟨result, []⟩) (hclosing : tokens.countP Token.isClosing = 0) :
    result.size = expansion.current.size + tokens.countP Token.isMove := by
  induction tokens generalizing expansion with
  | nil =>
    obtain rfl := Except.ok.inj h
    rfl
  | cons token tokens ih =>
    obtain ⟨next, hstep, hrun⟩ := run_cons_eq_ok_iff.1 h
    have hrest : tokens.countP Token.isClosing = 0 := by
      rw [List.countP_cons] at hclosing
      exact (Nat.add_eq_zero_iff.1 hclosing).1
    rw [ih hrun hrest]
    cases token with
    | move move =>
      obtain rfl := Except.ok.inj hstep
      rw [Array.size_push, List.countP_cons_of_pos rfl]
      omega
    | opening =>
      -- a group that is opened stays open
      have hdepth := depth_run h
      rw [List.countP_cons_of_pos rfl, hclosing] at hdepth
      simp at hdepth
    | closing digits => rw [List.countP_cons_of_pos rfl] at hclosing; cases hclosing
    | unknown c => cases hstep

/-- When a group has closed, the sequence around it is within the limit. -/
theorem size_current_of_close {expansion next : Expansion} (digits : Digits)
    (h : expansion.close digits.val = .ok next) : next.current.size ≤ maxMoves := by
  obtain ⟨sequence, enclosing, -, -, hlimit, rfl⟩ := close_eq_ok_iff.1 h
  rwa [size_appendCopies]

end Expansion

end LastLayer.Notation

namespace LastLayer.Algorithm

open Notation

variable {text : String} {algorithm : Algorithm} (h : parse text = .ok algorithm)

include h

/-- A text without groups has one move for each letter. -/
theorem length_of_parse_of_notMem (hclosing : ')' ∉ text.toList) :
    algorithm.length = letterCount text.toList := by
  have hnone : (Token.scan text.toList).countP Token.isClosing = 0 := by
    rw [(Token.count_scan text.toList).2, List.count_eq_zero_of_not_mem hclosing]
  have hsize := Expansion.size_of_run_to_end (parse_eq_ok_iff.1 h) hnone
  rw [Token.countP_isMove_scan] at hsize
  simpa [Expansion.start] using hsize

/-- The last group leaves at most `maxMoves` moves, and only letters behind it add to them. -/
theorem length_of_parse_le {front back : List Char} (htext : text.toList = front ++ ')' :: back)
    (hback : ')' ∉ back) : algorithm.length ≤ maxMoves + letterCount back := by
  have hrun := parse_eq_ok_iff.1 h
  rw [htext, Token.scan_append front (delimited_cons.2 (by decide)),
    Expansion.run_append_eq_ok_iff] at hrun
  obtain ⟨middle, -, hrun⟩ := hrun
  rw [Expansion.run_scan_closing, bind_eq_ok_iff] at hrun
  obtain ⟨next, hclose, hrun⟩ := hrun
  have hdigits : ∀ c ∈ back.takeWhile Char.isDigit, c.isDigit = true :=
    fun _ hc => List.mem_takeWhile_imp hc
  have hlimit : next.current.size ≤ maxMoves :=
    Expansion.size_current_of_close ⟨_, hdigits⟩ hclose
  -- the rest of the text is a part of what stands behind the parenthesis
  have hrest : (back.dropWhile Char.isDigit).Sublist back := List.dropWhile_sublist _
  have hnone : (Token.scan (back.dropWhile Char.isDigit)).countP Token.isClosing = 0 := by
    rw [(Token.count_scan _).2]
    exact List.count_eq_zero_of_not_mem fun hmem => hback (hrest.subset hmem)
  have hsize := Expansion.size_of_run_to_end hrun hnone
  rw [Token.countP_isMove_scan, List.size_toArray] at hsize
  have hletters : letterCount (back.dropWhile Char.isDigit) ≤ letterCount back := hrest.countP_le
  omega

end LastLayer.Algorithm
