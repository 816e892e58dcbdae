import LastLayer.Proofs.Notation.Recognition

/-!
# Texts one behind another

A text is a sequence of items, and what is put behind it can change its last item only: a move may
get further suffixes, and a closing parenthesis further digits (`Token.exists_lastItem`). A text
that continues no item is therefore scanned as if it stood alone (`Token.scan_append`).

Moves that have been read before a text count against the limit when a group of the text closes on
the outermost level, and matter for nothing else: reading the text behind them ends with a repeat
count that is out of range, or it ends as it does without them (`Expansion.run_behind`).
-/

namespace LastLayer.Notation

/-! ## Items -/

/-- Whether a character right behind a spelling is taken as one more suffix. -/
def Spelling.takes (spelling : Spelling) (c : Char) : Bool :=
  spelling.prime.isNone &&
    (isPrime c || !spelling.half && (c == '2' || !spelling.wide && c == 'w'))

theorem Delimited.head_not_taken {spelling : Spelling} {cs : List Char} (h : Delimited cs) :
    ∀ c ∈ cs.head?, spelling.takes c = false := by
  intro c hc
  simp [Spelling.takes, h.head_not_prime c hc, h.head_ne_half c hc, h.head_ne_wide c hc]

namespace Token

/-- Scan a move behind which no further suffix stands. -/
theorem scan_spelling (spelling : Spelling) {rest : List Char}
    (h : ∀ c ∈ rest.head?, spelling.takes c = false) :
    scan (spelling.text ++ rest) = .move spelling.move :: scan rest := by
  have hread : readMove spelling.letter (spelling.suffix ++ rest) = (spelling.move, rest) := by
    obtain ⟨letter, wide, half, prime⟩ := spelling
    cases rest with
    | nil => cases wide <;> cases half <;> rcases prime with _ | _ | _ <;> rfl
    | cons c cs =>
      have hc := h c rfl
      cases wide <;> cases half <;> rcases prime with _ | _ | _ <;>
        simp_all [readMove, Spelling.suffix, Spelling.move, Spelling.takes, accept, PrimeMark.char,
          isPrime]
  rw [Spelling.text, List.cons_append, scan_cons, read_letter, hread]
  rfl

/-- Scan a closing parenthesis with its digits, behind which no further digit stands. -/
theorem scan_closing (digits : Digits) {rest : List Char}
    (h : ∀ c ∈ rest.head?, c.isDigit = false) :
    scan (')' :: (digits.val ++ rest)) = .closing digits.val :: scan rest := by
  obtain ⟨htake, hdrop⟩ := takeWhile_append_eq digits.property h
  rw [scan_cons, read_closing, htake, hdrop]
  rfl

theorem scan_spelling_text (spelling : Spelling) :
    scan spelling.text = [.move spelling.move] := by
  have hscan := scan_spelling spelling delimited_nil.head_not_taken
  rwa [List.append_nil, scan_nil] at hscan

theorem scan_closing_digits (digits : Digits) :
    scan (')' :: digits.val) = [.closing digits.val] := by
  have hscan := scan_closing digits delimited_nil.head_not_digit
  rwa [List.append_nil, scan_nil] at hscan

end Token

/-- A character in front of a text is taken off just if it is there. -/
theorem exists_flag (p : Char) (cs : List Char) :
    ∃ (flag : Bool) (rest : List Char), cs = (if flag then [p] else []) ++ rest ∧
      (flag = false → ∀ c ∈ rest.head?, (c == p) = false) := by
  cases cs with
  | nil => exact ⟨false, [], rfl, fun _ c hc => by cases hc⟩
  | cons c cs =>
    by_cases h : c = p
    · exact ⟨true, cs, by simp [h], fun hflag => by cases hflag⟩
    · refine ⟨false, c :: cs, rfl, fun _ c' hc' => ?_⟩
      cases hc'
      exact beq_eq_false_iff_ne.2 h

/-- Every text behind a letter starts with suffixes, behind which no further suffix stands. -/
theorem Spelling.exists_suffix (letter : Letter) (cs : List Char) :
    ∃ (spelling : Spelling) (rest : List Char), spelling.letter = letter ∧
      cs = spelling.suffix ++ rest ∧ ∀ c ∈ rest.head?, spelling.takes c = false := by
  obtain ⟨wide, cs, rfl, hwide⟩ := exists_flag 'w' cs
  obtain ⟨half, cs, rfl, hhalf⟩ := exists_flag '2' cs
  obtain ⟨prime, rest, rfl, hprime⟩ : ∃ (prime : Option PrimeMark) (rest : List Char),
      cs = (prime.map PrimeMark.char).toList ++ rest ∧
        (prime = none → ∀ c ∈ rest.head?, isPrime c = false) := by
    obtain ⟨apostrophe, cs', hcs, hnot⟩ := exists_flag '\x27' cs
    obtain ⟨grave, rest, hrest, hnot'⟩ := exists_flag '\x60' cs
    cases apostrophe with
    | true => exact ⟨some .apostrophe, cs', hcs, fun h => by cases h⟩
    | false =>
      cases grave with
      | true => exact ⟨some .grave, rest, hrest, fun h => by cases h⟩
      | false =>
        refine ⟨none, cs, rfl, fun _ c hc => ?_⟩
        rw [show cs' = cs from hcs.symm] at hnot
        rw [show rest = cs from hrest.symm] at hnot'
        rw [isPrime, hnot rfl c hc, hnot' rfl c hc]
        rfl
  refine ⟨⟨letter, wide, half, prime⟩, rest, rfl, by simp [suffix], fun c hc => ?_⟩
  -- a suffix that is missing was not there, so none of those that could still be taken is
  cases prime with
  | some mark => rfl
  | none =>
    have hmark : isPrime c = false := hprime rfl c hc
    cases half with
    | true => simp [takes, hmark]
    | false =>
      have htwo : (c == '2') = false := hhalf rfl c hc
      cases wide with
      | true => simp [takes, hmark, htwo]
      | false =>
        have hw : (c == 'w') = false := hwide rfl c hc
        simp [takes, hmark, htwo, hw]

/-- Induction over the items of a text: what holds of the empty text, and of a text whenever it
holds of what stands behind the first item, holds of every text. -/
@[elab_as_elim]
theorem item_induction {motive : List Char → Prop} (nil : motive [])
    (separator : ∀ c cs, isSeparator c = true → motive cs → motive (c :: cs))
    (opening : ∀ cs, motive cs → motive ('(' :: cs))
    (closing : ∀ (digits : Digits) (rest : List Char), (∀ c ∈ rest.head?, c.isDigit = false) →
      motive rest → motive (')' :: (digits.val ++ rest)))
    (move : ∀ (spelling : Spelling) (rest : List Char),
      (∀ c ∈ rest.head?, spelling.takes c = false) → motive rest → motive (spelling.text ++ rest))
    (unknown : ∀ c cs, ¬ isSeparator c = true → c ≠ '(' → c ≠ ')' → Letter.ofChar? c = none →
      motive cs → motive (c :: cs)) (cs : List Char) : motive cs := by
  induction hlength : cs.length using Nat.strongRecOn generalizing cs with
  | ind length ih =>
    subst hlength
    cases cs with
    | nil => exact nil
    | cons c cs =>
      have hcs : motive cs := ih _ (Nat.lt_succ_self _) cs rfl
      by_cases hseparator : isSeparator c = true
      · exact separator c cs hseparator hcs
      by_cases hopening : c = '('
      · exact hopening ▸ opening cs hcs
      by_cases hclosing : c = ')'
      · have hdigits : ∀ c ∈ cs.takeWhile Char.isDigit, c.isDigit = true :=
          fun _ hc => List.mem_takeWhile_imp hc
        have hrest : ∀ c ∈ (cs.dropWhile Char.isDigit).head?, c.isDigit = false := by
          intro c hc
          have hhead := List.head?_dropWhile_not Char.isDigit cs
          rw [hc] at hhead
          simpa using hhead
        have hshort : (cs.dropWhile Char.isDigit).length < (c :: cs).length :=
          Nat.lt_succ_of_le (List.dropWhile_suffix Char.isDigit).length_le
        have hitem := closing ⟨_, hdigits⟩ _ hrest (ih _ hshort _ rfl)
        rwa [List.takeWhile_append_dropWhile, ← hclosing] at hitem
      cases hletter : Letter.ofChar? c with
      | some letter =>
        obtain rfl := Letter.ofChar?_eq_some_iff.1 hletter
        obtain ⟨spelling, rest, rfl, rfl, hrest⟩ := Spelling.exists_suffix letter cs
        have hshort : rest.length < (spelling.letter.char :: (spelling.suffix ++ rest)).length := by
          simp only [List.length_cons, List.length_append]
          omega
        exact move spelling rest hrest (ih _ hshort rest rfl)
      | none => exact unknown c cs hseparator hopening hclosing hletter hcs

/-! ## The last item -/

namespace Token

/-- An item at the end of a text with which a longer text may go on, if there is any. -/
inductive LastItem : List Char → Prop
  | none : LastItem []
  | move (spelling : Spelling) : LastItem spelling.text
  | closing (digits : Digits) : LastItem (')' :: digits.val)

/-- What is put behind a text goes on with its last item, and leaves all tokens before it as they
are. -/
theorem exists_lastItem (cs : List Char) :
    ∃ (tokens : List Token) (item : List Char), LastItem item ∧
      ∀ more, scan (cs ++ more) = tokens ++ scan (item ++ more) := by
  induction cs using item_induction with
  | nil => exact ⟨[], [], .none, fun _ => rfl⟩
  | separator c cs h ih =>
    obtain ⟨tokens, item, hitem, hscan⟩ := ih
    refine ⟨tokens, item, hitem, fun more => ?_⟩
    rw [List.cons_append, scan_cons, read_separator _ h, hscan]
    rfl
  | opening cs ih =>
    obtain ⟨tokens, item, hitem, hscan⟩ := ih
    refine ⟨.opening :: tokens, item, hitem, fun more => ?_⟩
    rw [List.cons_append, scan_cons, read_opening, hscan]
    rfl
  | closing digits rest hrest ih =>
    obtain ⟨tokens, item, hitem, hscan⟩ := ih
    cases rest with
    | nil => exact ⟨[], _, .closing digits, fun more => by rw [List.append_nil, List.nil_append]⟩
    | cons c rest =>
      -- the digits end at `c`, whatever stands behind that
      refine ⟨.closing digits.val :: tokens, item, hitem, fun more => ?_⟩
      have hmore : ∀ c' ∈ (c :: rest ++ more).head?, c'.isDigit = false := hrest
      rw [List.cons_append, List.append_assoc, scan_closing digits hmore, hscan]
      rfl
  | move spelling rest hrest ih =>
    obtain ⟨tokens, item, hitem, hscan⟩ := ih
    cases rest with
    | nil => exact ⟨[], _, .move spelling, fun more => by rw [List.append_nil, List.nil_append]⟩
    | cons c rest =>
      refine ⟨.move spelling.move :: tokens, item, hitem, fun more => ?_⟩
      have hmore : ∀ c' ∈ (c :: rest ++ more).head?, spelling.takes c' = false := hrest
      rw [List.append_assoc, scan_spelling spelling hmore, hscan]
      rfl
  | unknown c cs hseparator hopening hclosing hletter ih =>
    obtain ⟨tokens, item, hitem, hscan⟩ := ih
    refine ⟨.unknown c :: tokens, item, hitem, fun more => ?_⟩
    rw [List.cons_append, scan_cons, read_unknown _ hseparator hopening hclosing hletter, hscan]
    rfl

/-- Nothing is glued to an item by a text that continues no item. -/
theorem LastItem.exists_scan_append {item : List Char} (h : LastItem item) :
    ∃ tokens : List Token, ∀ rest, Delimited rest → scan (item ++ rest) = tokens ++ scan rest := by
  cases h with
  | none => exact ⟨[], fun _ _ => rfl⟩
  | move spelling =>
    exact ⟨[.move spelling.move], fun rest hrest => scan_spelling spelling hrest.head_not_taken⟩
  | closing digits =>
    exact ⟨[.closing digits.val], fun rest hrest => scan_closing digits hrest.head_not_digit⟩

/-- A text that continues no item is scanned by itself. -/
theorem scan_append (cs : List Char) {rest : List Char} (h : Delimited rest) :
    scan (cs ++ rest) = scan cs ++ scan rest := by
  obtain ⟨tokens, item, hitem, hscan⟩ := exists_lastItem cs
  obtain ⟨last, hlast⟩ := hitem.exists_scan_append
  have hitem : scan item = last := by simpa using hlast [] delimited_nil
  have halone : scan cs = tokens ++ last := by simpa [hitem] using hscan []
  rw [hscan, hlast rest h, halone, List.append_assoc]

end Token

/-! ## Moves in front of a text -/

/-- A phrase stays within the limits behind more moves if all of them together do. -/
theorem Phrase.withinLimits_of_length_le {phrase : Phrase} {fewer before : Nat}
    (h : phrase.WithinLimits fewer) (hfewer : fewer ≤ before)
    (hlength : before + phrase.expansion.length ≤ maxMoves) : phrase.WithinLimits before := by
  induction phrase generalizing fewer before with
  | empty => trivial
  | separator c hc phrase ih => exact ih h hfewer hlength
  | move spelling phrase ih =>
    refine ih h (Nat.succ_le_succ hfewer) ?_
    rw [expansion, List.length_cons] at hlength
    omega
  | group inner digits phrase ihInner ih =>
    obtain ⟨hinner, hcount, -, hrest⟩ := h
    have hcopies : (List.replicate digits.count inner.expansion).flatten.length =
        inner.expansion.length * digits.count := by
      simp [Nat.mul_comm]
    rw [expansion, List.length_append, hcopies] at hlength
    exact ⟨hinner, hcount, by omega, ih hrest (Nat.add_le_add_right hfewer _) (by omega)⟩

theorem appendCopies_append (before sequence group : Array Move) (count : Nat) :
    appendCopies (before ++ sequence) group count =
      before ++ appendCopies sequence group count := by
  apply Array.toList_inj.1
  simp [toList_appendCopies]

namespace Expansion

/-- An expansion with more moves in front of its outermost sequence. -/
def behind (before : Array Move) : Expansion → Expansion
  | ⟨current, []⟩ => ⟨before ++ current, []⟩
  | ⟨current, sequence :: enclosing⟩ =>
    ⟨current, (behind before ⟨sequence, enclosing⟩).current ::
      (behind before ⟨sequence, enclosing⟩).enclosing⟩
termination_by expansion => expansion.enclosing.length

variable (before : Array Move)

theorem behind_flat (current : Array Move) :
    behind before ⟨current, []⟩ = ⟨before ++ current, []⟩ := by
  rw [behind]

theorem behind_start : start.behind before = ⟨before, []⟩ := by
  rw [start, behind_flat, Array.append_empty]

theorem behind_nested (current sequence : Array Move) (enclosing : List (Array Move)) :
    behind before ⟨current, sequence :: enclosing⟩ =
      ⟨current, (behind before ⟨sequence, enclosing⟩).current ::
        (behind before ⟨sequence, enclosing⟩).enclosing⟩ := by
  rw [behind]

theorem enclosing_behind_eq_nil_iff (expansion : Expansion) :
    (expansion.behind before).enclosing = [] ↔ expansion.enclosing = [] := by
  obtain ⟨current, enclosing⟩ := expansion
  cases enclosing with
  | nil => rw [behind_flat]
  | cons sequence enclosing => simp [behind_nested]

theorem behind_push (current : Array Move) (enclosing : List (Array Move)) (move : Move) :
    behind before ⟨current.push move, enclosing⟩ =
      { behind before ⟨current, enclosing⟩ with
        current := (behind before ⟨current, enclosing⟩).current.push move } := by
  cases enclosing with
  | nil => simp only [behind_flat, Array.append_push]
  | cons sequence enclosing => simp only [behind_nested]

theorem behind_appendCopies (current group : Array Move) (enclosing : List (Array Move))
    (count : Nat) :
    behind before ⟨appendCopies current group count, enclosing⟩ =
      { behind before ⟨current, enclosing⟩ with
        current := appendCopies (behind before ⟨current, enclosing⟩).current group count } := by
  cases enclosing with
  | nil => simp only [behind_flat, appendCopies_append]
  | cons sequence enclosing => simp only [behind_nested]

theorem size_current_le_behind (current : Array Move) (enclosing : List (Array Move)) :
    current.size ≤ (behind before ⟨current, enclosing⟩).current.size := by
  cases enclosing with
  | nil =>
    rw [behind_flat, Array.size_append]
    exact Nat.le_add_left _ _
  | cons sequence enclosing => rw [behind_nested]

/-- A group that closes behind more moves may bring its sequence over the limit; otherwise it closes
as it does without them. -/
theorem close_behind (expansion : Expansion) (digits : List Char) :
    (∃ count, (expansion.behind before).close digits = .error (.repeatCount count)) ∨
      (expansion.behind before).close digits = (expansion.close digits).map (behind before) := by
  obtain ⟨current, enclosing⟩ := expansion
  cases enclosing with
  | nil =>
    rw [behind_flat]
    exact .inr rfl
  | cons sequence enclosing =>
    rw [behind_nested]
    simp only [close]
    cases repeatCount? digits with
    | none => exact .inr rfl
    | some count =>
      have hsize := size_current_le_behind before sequence enclosing
      by_cases hlimit : (behind before ⟨sequence, enclosing⟩).current.size +
          current.size * count ≤ maxMoves
      · have hlimit' : sequence.size + current.size * count ≤ maxMoves :=
          (Nat.add_le_add_right hsize _).trans hlimit
        right
        simp only [if_pos hlimit, if_pos hlimit', Except.map, behind_appendCopies]
      · left
        exact ⟨_, if_neg hlimit⟩

theorem step_behind (expansion : Expansion) (token : Token) :
    (∃ count, (expansion.behind before).step token = .error (.repeatCount count)) ∨
      (expansion.behind before).step token = (expansion.step token).map (behind before) := by
  cases token with
  | move move =>
    right
    simp only [step, Except.map]
    rw [behind_push]
  | opening =>
    right
    simp only [step, Except.map]
    rw [behind_nested]
  | closing digits => exact close_behind before expansion digits
  | unknown c => exact .inr rfl

/-- Behind more moves a run ends with a repeat count that is out of range, or as it does without
them. -/
theorem run_behind (expansion : Expansion) (tokens : List Token) :
    (∃ count, (expansion.behind before).run tokens = .error (.repeatCount count)) ∨
      (expansion.behind before).run tokens = (expansion.run tokens).map (behind before) := by
  induction tokens generalizing expansion with
  | nil => exact .inr rfl
  | cons token tokens ih =>
    rw [run_cons, run_cons]
    rcases step_behind before expansion token with ⟨count, hfault⟩ | hsame
    · left
      exact ⟨count, by rw [hfault]; rfl⟩
    · rw [hsame]
      cases expansion.step token with
      | error error => exact .inr rfl
      | ok next => exact ih next

end Expansion

end LastLayer.Notation
