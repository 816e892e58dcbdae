import LastLayer.Proofs.Notation.Concatenation

/-!
# Faults of longer texts

Reading stops at the first fault, so what stands behind a fault does not matter, unless it prolongs
the digits of a repeat count (`Expansion.run_scan_append_eq_error`). Only a group that is left open
is no fault until the end of the text, and a text in which nothing else is wrong can be completed.

How many groups are open is told by the parentheses: as long as there is no fault, every opening
parenthesis adds a level and every closing one takes a level away (`Expansion.depth_run`). Scanning
neither gains nor loses a parenthesis (`Token.count_scan`), so the parentheses can be counted in the
text, and up to any place in it there are at least as many opening as closing ones
(`Expansion.count_le_of_run`).
-/

namespace LastLayer.Notation

/-! ## How a run ends -/

section

variable {α β : Type} {result : Except Error α} {next : α → Except Error β}

theorem bind_eq_ok_iff {b : β} :
    result.bind next = .ok b ↔ ∃ a, result = .ok a ∧ next a = .ok b := by
  cases result <;> simp [Except.bind]

theorem map_eq_ok_iff {f : α → β} {b : β} :
    result.map f = .ok b ↔ ∃ a, result = .ok a ∧ f a = b := by
  cases result <;> simp [Except.map]

theorem bind_eq_error_iff {error : Error} :
    result.bind next = .error error ↔
      result = .error error ∨ ∃ a, result = .ok a ∧ next a = .error error := by
  cases result <;> simp [Except.bind]

end

namespace Expansion

variable {expansion next : Expansion} {token : Token} {tokens first second : List Token}
  {error : Error}

theorem run_cons_eq_ok_iff :
    expansion.run (token :: tokens) = .ok next ↔
      ∃ middle, expansion.step token = .ok middle ∧ middle.run tokens = .ok next := by
  rw [run_cons, bind_eq_ok_iff]

theorem run_append_eq_ok_iff :
    expansion.run (first ++ second) = .ok next ↔
      ∃ middle, expansion.run first = .ok middle ∧ middle.run second = .ok next := by
  rw [run_append, bind_eq_ok_iff]

theorem run_append_eq_error_iff :
    expansion.run (first ++ second) = .error error ↔
      expansion.run first = .error error ∨
        ∃ middle, expansion.run first = .ok middle ∧ middle.run second = .error error := by
  rw [run_append, bind_eq_error_iff]

/-- A group fails to close if there is none, or because of its repeat count. -/
theorem close_eq_error {digits : List Char} (h : expansion.close digits = .error error) :
    (error = .unexpectedClose ∧ expansion.enclosing = []) ∨
      ∃ count, error = .repeatCount count := by
  obtain ⟨current, enclosing⟩ := expansion
  cases enclosing with
  | nil => exact .inl ⟨(Except.error.inj h).symm, rfl⟩
  | cons sequence enclosing =>
    right
    simp only [close] at h
    split at h
    · -- the digits stand for no number of 64 bits
      exact ⟨_, (Except.error.inj h).symm⟩
    · split at h
      · cases h
      · -- the sequence around the group becomes too long
        exact ⟨_, (Except.error.inj h).symm⟩

/-- A run that fails takes in some tokens, and the next one is at fault. -/
theorem exists_fault (h : expansion.run tokens = .error error) :
    ∃ front fault back, tokens = front ++ fault :: back ∧
      ∃ next, expansion.run front = .ok next ∧ next.step fault = .error error := by
  induction tokens generalizing expansion with
  | nil => cases h
  | cons token tokens ih =>
    rw [run_cons, bind_eq_error_iff] at h
    rcases h with hstep | ⟨middle, hstep, hrest⟩
    · exact ⟨[], token, tokens, rfl, expansion, rfl, hstep⟩
    · obtain ⟨front, fault, back, rfl, next, hfront, hfault⟩ := ih hrest
      exact ⟨token :: front, fault, back, rfl, next,
        run_cons_eq_ok_iff.2 ⟨middle, hstep, hfront⟩, hfault⟩

/-- An open group is no fault of a token. -/
theorem run_ne_unclosedGroup (expansion : Expansion) (tokens : List Token) :
    expansion.run tokens ≠ .error .unclosedGroup := by
  intro h
  obtain ⟨front, fault, back, -, next, -, hfault⟩ := exists_fault h
  cases fault with
  | move move => cases hfault
  | opening => cases hfault
  | closing digits =>
    rcases close_eq_error hfault with ⟨hclose, -⟩ | ⟨count, hclose⟩
    · cases hclose
    · cases hclose
  | unknown c => cases hfault

/-- A token that is at fault for another reason than a repeat count is so behind more moves, too. -/
theorem step_behind_eq_error (before : Array Move) (h : expansion.step token = .error error)
    (herror : ∀ count, error ≠ .repeatCount count) :
    (expansion.behind before).step token = .error error := by
  cases token with
  | move move => cases h
  | opening => cases h
  | closing digits =>
    rcases close_eq_error h with ⟨rfl, hnone⟩ | ⟨count, hcount⟩
    · -- moves in front of a text open no group
      rw [step, close, (enclosing_behind_eq_nil_iff before expansion).2 hnone]
    · exact absurd hcount (herror count)
  | unknown c => exact h

theorem finish_eq_ok_iff {algorithm : Algorithm} :
    expansion.finish = .ok algorithm ↔ expansion = ⟨algorithm.toArray, []⟩ := by
  obtain ⟨current, enclosing⟩ := expansion
  cases enclosing with
  | nil => simp [finish, ← Array.toList_inj]
  | cons sequence enclosing => simp [finish]

theorem finish_eq_error_iff :
    expansion.finish = .error error ↔ error = .unclosedGroup ∧ expansion.enclosing ≠ [] := by
  obtain ⟨current, enclosing⟩ := expansion
  cases enclosing with
  | nil => simp [finish]
  | cons sequence enclosing => simp [finish, eq_comm]

end Expansion

end LastLayer.Notation

namespace LastLayer.Algorithm

open Notation

variable {text : String}

/-- A text is read if its tokens can be taken in and no group is left open. -/
theorem parse_eq_ok_iff {algorithm : Algorithm} :
    parse text = .ok algorithm ↔
      Expansion.start.run (Token.scan text.toList) = .ok ⟨algorithm.toArray, []⟩ := by
  simp only [parse, bind_eq_ok_iff, Expansion.finish_eq_ok_iff, exists_eq_right]

/-- Every fault but an open group is one of the tokens. -/
theorem parse_eq_error_iff {error : Error} (h : error ≠ .unclosedGroup) :
    parse text = .error error ↔
      Expansion.start.run (Token.scan text.toList) = .error error := by
  simp only [parse, bind_eq_error_iff, Expansion.finish_eq_error_iff, h, false_and, and_false,
    exists_false, or_false]

theorem parse_eq_unclosedGroup_iff :
    parse text = .error .unclosedGroup ↔
      ∃ next, Expansion.start.run (Token.scan text.toList) = .ok next ∧ next.enclosing ≠ [] := by
  simp only [parse, bind_eq_error_iff, Expansion.finish_eq_error_iff, true_and,
    Expansion.run_ne_unclosedGroup, false_or]

end LastLayer.Algorithm

namespace LastLayer.Notation

/-! ## Parentheses -/

theorem Digits.parenthesis_notMem (digits : Digits) : '(' ∉ digits.val ∧ ')' ∉ digits.val := by
  constructor
  · intro h
    exact absurd (digits.property _ h) (by decide)
  · intro h
    exact absurd (digits.property _ h) (by decide)

namespace Token

/-- Whether a token is an opening parenthesis. -/
def isOpening : Token → Bool
  | .opening => true
  | _ => false

/-- Whether a token is a closing parenthesis. -/
def isClosing : Token → Bool
  | .closing _ => true
  | _ => false

theorem parenthesis_notMem_text (spelling : Spelling) :
    '(' ∉ spelling.text ∧ ')' ∉ spelling.text := by
  obtain ⟨letter, wide, half, prime⟩ := spelling
  have hletter : '(' ≠ letter.char ∧ ')' ≠ letter.char := by
    cases letter <;> decide
  cases wide <;> cases half <;> rcases prime with _ | _ | _ <;>
    simp [Spelling.text, Spelling.suffix, PrimeMark.char, hletter]

/-- Every parenthesis of a text is one of its tokens. -/
theorem count_scan (cs : List Char) :
    (scan cs).countP isOpening = cs.count '(' ∧ (scan cs).countP isClosing = cs.count ')' := by
  induction cs using item_induction with
  | nil => simp
  | separator c cs h ih =>
    have hopening : c ≠ '(' := by rintro rfl; cases h
    have hclosing : c ≠ ')' := by rintro rfl; cases h
    rw [scan_cons, read_separator cs h]
    simpa [hopening, hclosing] using ih
  | opening cs ih =>
    rw [scan_cons, read_opening]
    simpa [List.countP_cons, isOpening, isClosing] using ih
  | closing digits rest hrest ih =>
    obtain ⟨hopening, hclosing⟩ := digits.parenthesis_notMem
    rw [scan_closing digits hrest]
    simpa [List.countP_cons, isOpening, isClosing, List.count_eq_zero_of_not_mem hopening,
      List.count_eq_zero_of_not_mem hclosing] using ih
  | move spelling rest hrest ih =>
    obtain ⟨hopening, hclosing⟩ := parenthesis_notMem_text spelling
    rw [scan_spelling spelling hrest]
    simpa [List.countP_cons, isOpening, isClosing, List.count_eq_zero_of_not_mem hopening,
      List.count_eq_zero_of_not_mem hclosing] using ih
  | unknown c cs hseparator hopening hclosing hletter ih =>
    rw [scan_cons, read_unknown cs hseparator hopening hclosing hletter]
    simpa [List.countP_cons, isOpening, isClosing, hopening, hclosing] using ih

end Token

namespace Expansion

variable {expansion next : Expansion}

theorem depth_step {token : Token} (h : expansion.step token = .ok next) :
    expansion.enclosing.length + (if token.isOpening then 1 else 0) =
      next.enclosing.length + if token.isClosing then 1 else 0 := by
  cases token with
  | move move =>
    obtain rfl := Except.ok.inj h
    rfl
  | opening =>
    obtain rfl := Except.ok.inj h
    rfl
  | closing digits =>
    obtain ⟨current, enclosing⟩ := expansion
    cases enclosing with
    | nil => cases h
    | cons sequence enclosing =>
      simp only [step, close] at h
      split at h
      · cases h
      · split at h
        · obtain rfl := Except.ok.inj h
          rfl
        · cases h
  | unknown c => cases h

/-- As many groups are open as have been opened and not been closed. -/
theorem depth_run {tokens : List Token} (h : expansion.run tokens = .ok next) :
    expansion.enclosing.length + tokens.countP Token.isOpening =
      next.enclosing.length + tokens.countP Token.isClosing := by
  induction tokens generalizing expansion with
  | nil =>
    obtain rfl := Except.ok.inj h
    rfl
  | cons token tokens ih =>
    obtain ⟨middle, hstep, hrun⟩ := run_cons_eq_ok_iff.1 h
    have hfirst := depth_step hstep
    have hrest := ih hrun
    rw [List.countP_cons, List.countP_cons]
    omega

/-- Up to any place of a text that is read without a fault, no more groups are closed than opened.
-/
theorem count_le_of_run {cs more : List Char} (h : start.run (Token.scan (cs ++ more)) = .ok next) :
    cs.count ')' ≤ cs.count '(' := by
  obtain ⟨tokens, item, hitem, hscan⟩ := Token.exists_lastItem cs
  have halone : Token.scan cs = tokens ++ Token.scan item := by simpa using hscan []
  rw [hscan] at h
  obtain ⟨middle, htokens, hrest⟩ := run_append_eq_ok_iff.1 h
  have hdepth : tokens.countP Token.isOpening =
      middle.enclosing.length + tokens.countP Token.isClosing := by
    simpa [start] using depth_run htokens
  obtain ⟨hopening, hclosing⟩ := Token.count_scan cs
  rw [← hopening, ← hclosing, halone, List.countP_append, List.countP_append]
  obtain ⟨hopening', hclosing'⟩ := Token.count_scan item
  rw [hopening', hclosing']
  cases hitem with
  | none =>
    rw [List.count_nil, List.count_nil]
    omega
  | move spelling =>
    obtain ⟨hopening, hclosing⟩ := Token.parenthesis_notMem_text spelling
    rw [List.count_eq_zero_of_not_mem hopening, List.count_eq_zero_of_not_mem hclosing]
    omega
  | closing digits =>
    -- the parenthesis at the end has a group to close, with whatever digits
    have hopen : middle.enclosing ≠ [] := by
      intro hnone
      rw [List.cons_append, run_scan_closing, close, hnone] at hrest
      cases hrest
    have hpositive : 0 < middle.enclosing.length := List.length_pos_iff.2 hopen
    rw [List.count_cons_self, List.count_eq_zero_of_not_mem digits.parenthesis_notMem.2]
    omega

/-! ## Longer texts -/

/-- A fault stays what it is when the text goes on, unless digits go on with a repeat count. -/
theorem run_scan_append_eq_error {cs more : List Char} {error : Error}
    (h : start.run (Token.scan cs) = .error error)
    (hmore : (∃ count, error = .repeatCount count) → ∀ c ∈ more.head?, c.isDigit = false) :
    start.run (Token.scan (cs ++ more)) = .error error := by
  obtain ⟨tokens, item, hitem, hscan⟩ := Token.exists_lastItem cs
  have halone : Token.scan cs = tokens ++ Token.scan item := by simpa using hscan []
  rw [halone, run_append_eq_error_iff] at h
  rw [hscan, run_append_eq_error_iff]
  refine h.imp_right ?_
  rintro ⟨middle, htokens, hitemfault⟩
  refine ⟨middle, htokens, ?_⟩
  cases hitem with
  | none => rw [Token.scan_nil] at hitemfault; cases hitemfault
  | move spelling => rw [Token.scan_spelling_text] at hitemfault; cases hitemfault
  | closing digits =>
    rw [Token.scan_closing_digits, run_cons, bind_eq_error_iff] at hitemfault
    rw [List.cons_append, run_scan_closing, bind_eq_error_iff]
    -- behind the parenthesis and its digits the shorter text ends, so it is they that are at fault
    have hclose : middle.close digits.val = .error error := by
      rcases hitemfault with hclose | ⟨_, _, hend⟩
      · exact hclose
      · cases hend
    left
    rcases close_eq_error hclose with ⟨rfl, hnone⟩ | hcount
    · -- without a group to close the digits are not looked at
      rw [close, hnone]
    · rw [(takeWhile_append_eq digits.property (hmore hcount)).1, hclose]

/-! ## Closing what is open -/

theorem scan_replicate_closing (n : Nat) :
    Token.scan (List.replicate n ')') = List.replicate n (.closing []) := by
  induction n with
  | zero => exact Token.scan_nil
  | succ n ih =>
    have hdigit : ∀ c ∈ (List.replicate n ')').head?, c.isDigit = false := by
      cases n with
      | zero => intro c hc; cases hc
      | succ n => intro c hc; cases hc; decide
    rw [List.replicate_succ, List.replicate_succ, ← ih]
    exact Token.scan_closing ⟨[], fun c hc => by cases hc⟩ hdigit

/-- All open groups can be closed, unless one of them makes the sequence around it too long. -/
theorem run_replicate_closing (current : Array Move) (enclosing : List (Array Move)) :
    (Expansion.mk current enclosing).run (List.replicate enclosing.length (.closing [])) =
        .error (.repeatCount "1") ∨
      ∃ result, (Expansion.mk current enclosing).run
        (List.replicate enclosing.length (.closing [])) = .ok ⟨result, []⟩ := by
  induction enclosing generalizing current with
  | nil => exact .inr ⟨current, rfl⟩
  | cons sequence enclosing ih =>
    rw [List.length_cons, List.replicate_succ, run_cons]
    have hcount : repeatCount? [] = some 1 := rfl
    by_cases hlimit : sequence.size + current.size * 1 ≤ maxMoves
    · have hclose : (Expansion.mk current (sequence :: enclosing)).step (.closing []) =
          .ok ⟨appendCopies sequence current 1, enclosing⟩ := by
        simp only [step, close, hcount, if_pos hlimit]
      rw [hclose]
      exact ih (appendCopies sequence current 1)
    · have hclose : (Expansion.mk current (sequence :: enclosing)).step (.closing []) =
          .error (.repeatCount "1") := by
        simp only [step, close, hcount, if_neg hlimit]
        rfl
      rw [hclose]
      exact .inl rfl

end Expansion

end LastLayer.Notation

namespace LastLayer.Algorithm

open Notation

variable {text : String}

/-- All tokens of a text are taken in if the text is read or only leaves groups open. -/
theorem exists_run_of_parse
    (h : (∃ algorithm, parse text = .ok algorithm) ∨ parse text = .error .unclosedGroup) :
    ∃ next, Expansion.start.run (Token.scan text.toList) = .ok next := by
  rcases h with ⟨algorithm, h⟩ | h
  · exact ⟨_, parse_eq_ok_iff.1 h⟩
  · obtain ⟨next, hrun, -⟩ := parse_eq_unclosedGroup_iff.1 h
    exact ⟨next, hrun⟩

/-- In a text without another fault the open groups are those of its opening parentheses that no
closing parenthesis stands for. -/
theorem count_opening_of_run {next : Expansion}
    (h : Expansion.start.run (Token.scan text.toList) = .ok next) :
    text.toList.count '(' = next.enclosing.length + text.toList.count ')' := by
  obtain ⟨hopening, hclosing⟩ := Token.count_scan text.toList
  have hdepth := Expansion.depth_run h
  rw [hopening, hclosing] at hdepth
  simpa [Expansion.start] using hdepth

/-- A text that is read when a lead stands in front of it is read by itself just if the lead leaves
no group open. -/
theorem exists_parse_iff_of_run_append {lead text : String} {result : Algorithm}
    (h : Expansion.start.run (Token.scan lead.toList ++ Token.scan text.toList) =
      .ok ⟨result.toArray, []⟩) :
    (∃ algorithm, parse text = .ok algorithm) ↔ lead.toList.count '(' = lead.toList.count ')' := by
  obtain ⟨⟨current, enclosing⟩, hlead, htext⟩ := Expansion.run_append_eq_ok_iff.1 h
  have hopen : lead.toList.count '(' = enclosing.length + lead.toList.count ')' :=
    count_opening_of_run hlead
  constructor
  · rintro ⟨algorithm, hparse⟩
    -- by itself the text opens as many groups as it closes, so it closes none of the lead
    have hown : (Token.scan text.toList).countP Token.isOpening =
        (Token.scan text.toList).countP Token.isClosing := by
      simpa [Expansion.start] using Expansion.depth_run (parse_eq_ok_iff.1 hparse)
    have hdepth : enclosing.length + (Token.scan text.toList).countP Token.isOpening =
        (Token.scan text.toList).countP Token.isClosing := by
      simpa using Expansion.depth_run htext
    omega
  · intro hbalanced
    obtain rfl : enclosing = [] := List.length_eq_zero_iff.1 (by omega)
    rw [← Expansion.behind_start] at htext
    rcases Expansion.run_behind current .start (Token.scan text.toList) with ⟨count, hfault⟩ | hsame
    · rw [hfault] at htext
      cases htext
    · rw [hsame, map_eq_ok_iff] at htext
      obtain ⟨⟨moves, enclosing⟩, hrun, hnext⟩ := htext
      obtain rfl : enclosing = [] := by
        rw [← Expansion.enclosing_behind_eq_nil_iff current ⟨moves, enclosing⟩, hnext]
      exact ⟨moves.toList, parse_eq_ok_iff.2 hrun⟩

/-- A fault stays what it is when the text goes on, unless digits go on with a repeat count. -/
theorem parse_append_eq_error {error : Error} (h : parse text = .error error)
    (herror : error ≠ .unclosedGroup) {more : String}
    (hmore : (∃ count, error = .repeatCount count) → ∀ c ∈ more.toList.head?, c.isDigit = false) :
    parse (text ++ more) = .error error := by
  rw [parse_eq_error_iff herror] at h ⊢
  rw [String.toList_append]
  exact Expansion.run_scan_append_eq_error h hmore

/-- A text without another fault is read just if it closes as many groups as it opens. -/
theorem count_eq_iff_of_run {next : Expansion}
    (h : Expansion.start.run (Token.scan text.toList) = .ok next) :
    text.toList.count '(' = text.toList.count ')' ↔ ∃ algorithm, parse text = .ok algorithm := by
  have hcount := count_opening_of_run h
  constructor
  · intro hbalanced
    obtain ⟨current, enclosing⟩ := next
    obtain rfl : enclosing = [] := List.length_eq_zero_iff.1 (by simpa [hbalanced] using hcount)
    exact ⟨current.toList, parse_eq_ok_iff.2 h⟩
  · rintro ⟨algorithm, hparse⟩
    rw [parse_eq_ok_iff.1 hparse] at h
    obtain rfl := Except.ok.inj h
    rw [hcount, List.length_nil, Nat.zero_add]

/-- Closing parentheses for all open groups complete a text. -/
theorem parse_append_closing {current : Array Move} {enclosing : List (Array Move)}
    (h : Expansion.start.run (Token.scan text.toList) = .ok ⟨current, enclosing⟩) :
    (∃ algorithm,
      parse (text ++ String.ofList (List.replicate enclosing.length ')')) = .ok algorithm) ∨
    parse (text ++ String.ofList (List.replicate enclosing.length ')')) =
      .error (.repeatCount "1") := by
  -- a parenthesis continues no item, so the text is scanned as before
  have hdelimited : Delimited (List.replicate enclosing.length ')') := by
    intro c hc
    rw [List.eq_of_mem_replicate (List.mem_of_mem_head? hc)]
    decide
  have hrun : Expansion.start.run
      (Token.scan (text ++ String.ofList (List.replicate enclosing.length ')')).toList) =
        (Expansion.mk current enclosing).run (List.replicate enclosing.length (.closing [])) := by
    rw [String.toList_append, String.toList_ofList, Token.scan_append _ hdelimited,
      Expansion.scan_replicate_closing, Expansion.run_append, h]
    rfl
  rcases Expansion.run_replicate_closing current enclosing with hfault | ⟨result, hresult⟩
  · right
    rw [parse_eq_error_iff (by rintro ⟨⟩), hrun, hfault]
  · left
    exact ⟨result.toList, by rw [parse_eq_ok_iff, hrun, hresult]⟩

/-- Except for a group that is left open, a fault is final. A character that starts no move and a
parenthesis without a group are reported however the text goes on, and a repeat count is reported
unless digits go on with it. As long as there is no such fault, no part of the text up to a place
closes more groups than it opens, and the text is read just if it closes all of them; if it leaves
some open, then closing parentheses for them complete it, unless a group becomes too long by that.
-/
theorem faults_are_final (text : String) :
    (∀ error, (error = .unexpectedClose ∨ ∃ c, error = .invalidMove c) →
      parse text = .error error → ∀ more, parse (text ++ more) = .error error) ∧
    (∀ count, parse text = .error (.repeatCount count) →
      ∀ more : String, (∀ c ∈ more.toList.head?, c.isDigit = false) →
        parse (text ++ more) = .error (.repeatCount count)) ∧
    ((∃ algorithm, parse text = .ok algorithm) ∨ parse text = .error .unclosedGroup →
      (∀ front, front <+: text.toList → front.count ')' ≤ front.count '(') ∧
      (text.toList.count '(' = text.toList.count ')' ↔
        ∃ algorithm, parse text = .ok algorithm)) ∧
    (parse text = .error .unclosedGroup →
      text.toList.count ')' < text.toList.count '(' ∧
      let closed := text ++ String.ofList
        (List.replicate (text.toList.count '(' - text.toList.count ')') ')')
      (∃ algorithm, parse closed = .ok algorithm) ∨
        parse closed = .error (.repeatCount "1")) := by
  refine ⟨?_, ?_, ?_, ?_⟩
  · -- neither of the two faults depends on digits
    rintro error (rfl | ⟨c, rfl⟩) h more
    · exact parse_append_eq_error h (by rintro ⟨⟩) (by rintro ⟨_, ⟨⟩⟩)
    · exact parse_append_eq_error h (by rintro ⟨⟩) (by rintro ⟨_, ⟨⟩⟩)
  · intro count h more hmore
    exact parse_append_eq_error h (by rintro ⟨⟩) fun _ => hmore
  · intro h
    obtain ⟨next, hrun⟩ := exists_run_of_parse h
    refine ⟨?_, count_eq_iff_of_run hrun⟩
    rintro front ⟨back, hback⟩
    rw [← hback] at hrun
    exact Expansion.count_le_of_run hrun
  · intro h
    obtain ⟨⟨current, enclosing⟩, hrun, hopen⟩ := parse_eq_unclosedGroup_iff.1 h
    have hcount : text.toList.count '(' = enclosing.length + text.toList.count ')' :=
      count_opening_of_run hrun
    have hpositive : 0 < enclosing.length := List.length_pos_iff.2 hopen
    refine ⟨by omega, ?_⟩
    rw [hcount, Nat.add_sub_cancel]
    exact parse_append_closing hrun

/-- A question mark starts no move, whatever stands behind it, and no group is made a hundred
thousand and one times. A text with a group left open has more opening parentheses, and closing it
is enough. -/
theorem faults_are_final_of_texts :
    parse ("R?" ++ "(U)") = .error (.invalidMove '?') ∧
    parse ("(R)100001" ++ " 2") = .error (.repeatCount "100001") ∧
    ['(', 'R', ')', '2', '('].count ')' ≤ ['(', 'R', ')', '2', '('].count '(' ∧
    ((∃ algorithm, parse ("(R)2(U" ++ String.ofList (List.replicate (2 - 1) ')')) = .ok algorithm) ∨
      parse ("(R)2(U" ++ String.ofList (List.replicate (2 - 1) ')')) =
        .error (.repeatCount "1")) := by
  have hunknown : parse "R?" = .error (.invalidMove '?') := by decide +kernel
  have hcount : parse "(R)100001" = .error (.repeatCount "100001") := by decide +kernel
  have hopen : parse "(R)2(U" = .error .unclosedGroup := by decide +kernel
  have hblank : ∀ c ∈ " 2".toList.head?, c.isDigit = false := by
    rintro c ⟨⟩
    decide
  refine ⟨(faults_are_final "R?").1 _ (.inr ⟨_, rfl⟩) hunknown "(U)",
    (faults_are_final "(R)100001").2.1 _ hcount " 2" hblank, ?_, ?_⟩
  · exact ((faults_are_final "(R)2(U").2.2.1 (.inr hopen)).1 _ ⟨['U'], rfl⟩
  · exact ((faults_are_final "(R)2(U").2.2.2 hopen).2

end LastLayer.Algorithm
