import LastLayer.Notation

/-!
# The grammar of move notation

A text in move notation is a sequence of items: separators, moves, and groups in parentheses with a
repeat count behind them. A `Phrase` is a derivation of such a sequence. It has a text, which is
what it derives, and an expansion, which is what it stands for; `Phrase.WithinLimits` says that its
counts are in range and that no group makes its enclosing sequence too long when it closes.

No suffix and no digit starts an item (`Phrase.delimited_text_append`). This is why it does no harm
to read every suffix as soon as it is there, and why the grammar is unambiguous: a text has at most
one derivation (`Phrase.text_injective`).
-/

namespace LastLayer.Notation

/-! ## Derivations -/

/-- The two ways to write a turn backwards. -/
inductive PrimeMark where
  | apostrophe
  | grave
deriving DecidableEq

def PrimeMark.char : PrimeMark → Char
  | .apostrophe => '\x27'
  | .grave => '\x60'

/-- A way to write a move: a letter, and the suffixes that stand behind it in this order. -/
@[ext]
structure Spelling where
  /-- The letter. -/
  letter : Letter
  /-- Whether a `w` follows. -/
  wide : Bool
  /-- Whether a `2` follows. -/
  half : Bool
  /-- The mark of a turn backwards, if one follows. -/
  prime : Option PrimeMark
deriving DecidableEq

namespace Spelling

/-- The characters behind the letter. -/
def suffix (spelling : Spelling) : List Char :=
  (if spelling.wide then ['w'] else []) ++ ((if spelling.half then ['2'] else []) ++
    (spelling.prime.map PrimeMark.char).toList)

def text (spelling : Spelling) : List Char :=
  spelling.letter.char :: spelling.suffix

/-- The move that is written: `w` widens it, and a half turn is one whatever mark follows. -/
def move (spelling : Spelling) : Move where
  letter := if spelling.wide then spelling.letter.widened else spelling.letter
  amount := if spelling.half then .half else if spelling.prime.isSome then .prime else .quarter

end Spelling

/-- A run of decimal digits, which may be empty. -/
abbrev Digits := { digits : List Char // ∀ c ∈ digits, c.isDigit = true }

/-- The repeat count that digits stand for; a group without digits is made once. -/
def Digits.count (digits : Digits) : Nat :=
  if digits.val = [] then 1 else Nat.ofDigitChars 10 digits.val 0

/-- A derivation of a sequence of items, the first item outermost. -/
inductive Phrase where
  /-- No items. -/
  | empty
  /-- A blank or a comma, and the items behind it. -/
  | separator (c : Char) (hc : isSeparator c = true) (rest : Phrase)
  /-- A move, and the items behind it. -/
  | move (spelling : Spelling) (rest : Phrase)
  /-- A group in parentheses with its count, and the items behind it. -/
  | group (inner : Phrase) (digits : Digits) (rest : Phrase)

namespace Phrase

/-- The text that is derived. -/
def text : Phrase → List Char
  | empty => []
  | separator c _ rest => c :: rest.text
  | move spelling rest => spelling.text ++ rest.text
  | group inner digits rest => '(' :: (inner.text ++ ')' :: (digits.val ++ rest.text))

theorem text_move_append (spelling : Spelling) (phrase : Phrase) (rest : List Char) :
    (move spelling phrase).text ++ rest =
      spelling.letter.char :: (spelling.suffix ++ (phrase.text ++ rest)) := by
  simp [text, Spelling.text]

theorem text_group_append (inner : Phrase) (digits : Digits) (phrase : Phrase)
    (rest : List Char) :
    (group inner digits phrase).text ++ rest =
      '(' :: (inner.text ++ ')' :: (digits.val ++ (phrase.text ++ rest))) := by
  simp [text]

/-- What a sequence stands for: its moves from left to right, those of a group as often as its count
says. -/
def expansion : Phrase → Algorithm
  | empty => []
  | separator _ _ rest => rest.expansion
  | move spelling rest => spelling.move :: rest.expansion
  | group inner digits rest =>
    (List.replicate digits.count inner.expansion).flatten ++ rest.expansion

/-- Every count fits in 64 bits, and no group brings the sequence around it to more than `maxMoves`
moves when it closes. The number is that of the moves which the sequence holds before the phrase. -/
def WithinLimits : Phrase → Nat → Prop
  | empty, _ => True
  | separator _ _ rest, before => rest.WithinLimits before
  | move _ rest, before => rest.WithinLimits (before + 1)
  | group inner digits rest, before =>
    inner.WithinLimits 0 ∧ digits.count < UInt64.size ∧
      before + inner.expansion.length * digits.count ≤ maxMoves ∧
      rest.WithinLimits (before + inner.expansion.length * digits.count)

end Phrase

/-! ## Where items end -/

/-- Whether a character continues an item: a suffix of a move, or a digit of a count. -/
def continuesItem (c : Char) : Bool :=
  c == 'w' || isPrime c || c.isDigit

/-- A text that continues no item before it. -/
def Delimited (cs : List Char) : Prop :=
  ∀ c ∈ cs.head?, continuesItem c = false

theorem delimited_nil : Delimited [] := by
  intro c hc
  cases hc

theorem delimited_cons {c : Char} {cs : List Char} :
    Delimited (c :: cs) ↔ continuesItem c = false := by
  constructor
  · intro h
    exact h c rfl
  · intro h c' hc'
    cases hc'
    exact h

theorem continuesItem_char (letter : Letter) : continuesItem letter.char = false := by
  cases letter <;> decide

theorem continuesItem_separator {c : Char} (h : isSeparator c = true) :
    continuesItem c = false := by
  -- what continues an item is visible ASCII, and of that only the comma separates
  have hblank : Text.isBlank c = true ∨ c = ',' := by
    simpa [isSeparator] using h
  rcases hblank with hblank | rfl
  · have hcode := Text.toNat_of_isBlank hblank
    rw [Bool.eq_false_iff]
    intro hcontinues
    simp only [continuesItem, isPrime, Bool.or_eq_true, beq_iff_eq, Char.isDigit_iff_toNat]
      at hcontinues
    rcases hcontinues with (rfl | rfl | rfl) | hdigit
    · exact absurd hcode (by decide)
    · exact absurd hcode (by decide)
    · exact absurd hcode (by decide)
    · change 48 ≤ c.toNat ∧ c.toNat ≤ 57 at hdigit
      omega
  · decide

/-- No item starts with a character that continues an item. -/
theorem Phrase.delimited_text_append (phrase : Phrase) {rest : List Char} (h : Delimited rest) :
    Delimited (phrase.text ++ rest) := by
  cases phrase with
  | empty => exact h
  | separator c hc rest => exact delimited_cons.2 (continuesItem_separator hc)
  | move spelling rest => exact delimited_cons.2 (continuesItem_char spelling.letter)
  | group inner digits rest => exact delimited_cons.2 (by decide)

namespace Delimited

variable {cs : List Char} (h : Delimited cs)

include h

theorem head_ne_wide : ∀ c ∈ cs.head?, (c == 'w') = false := by
  intro c hc
  have hcontinues := h c hc
  simp only [continuesItem, Bool.or_eq_false_iff] at hcontinues
  exact hcontinues.1.1

theorem head_not_prime : ∀ c ∈ cs.head?, isPrime c = false := by
  intro c hc
  have hcontinues := h c hc
  simp only [continuesItem, Bool.or_eq_false_iff] at hcontinues
  exact hcontinues.1.2

theorem head_not_digit : ∀ c ∈ cs.head?, c.isDigit = false := by
  intro c hc
  have hcontinues := h c hc
  simp only [continuesItem, Bool.or_eq_false_iff] at hcontinues
  exact hcontinues.2

theorem head_ne_half : ∀ c ∈ cs.head?, (c == '2') = false := by
  intro c hc
  have hdigit := h.head_not_digit c hc
  rw [beq_eq_false_iff_ne]
  rintro rfl
  exact absurd hdigit (by decide)

end Delimited

/-- A run of characters of one kind is read off the front of a text that does not prolong it. -/
theorem takeWhile_append_eq {kind : Char → Bool} {run rest : List Char}
    (hrun : ∀ c ∈ run, kind c = true) (hrest : ∀ c ∈ rest.head?, kind c = false) :
    (run ++ rest).takeWhile kind = run ∧ (run ++ rest).dropWhile kind = rest := by
  rw [List.takeWhile_append_of_pos hrun, List.dropWhile_append_of_pos hrun]
  cases rest with
  | nil => simp
  | cons c cs =>
    have hc := hrest c rfl
    simp [hc]

/-- Runs of one kind in front of texts that do not prolong them are told apart by the whole. -/
theorem append_injective_of_kind {kind : Char → Bool} {run run' rest rest' : List Char}
    (hrun : ∀ c ∈ run, kind c = true) (hrun' : ∀ c ∈ run', kind c = true)
    (hrest : ∀ c ∈ rest.head?, kind c = false) (hrest' : ∀ c ∈ rest'.head?, kind c = false)
    (h : run ++ rest = run' ++ rest') : run = run' ∧ rest = rest' := by
  obtain ⟨htake, hdrop⟩ := takeWhile_append_eq hrun hrest
  obtain ⟨htake', hdrop'⟩ := takeWhile_append_eq hrun' hrest'
  constructor
  · rw [← htake, h, htake']
  · rw [← hdrop, h, hdrop']

/-- The suffixes of a spelling are read off the front of a delimited text. -/
theorem readMove_suffix (spelling : Spelling) {rest : List Char} (h : Delimited rest) :
    Token.readMove spelling.letter (spelling.suffix ++ rest) = (spelling.move, rest) := by
  obtain ⟨letter, wide, half, prime⟩ := spelling
  cases rest with
  | nil => cases wide <;> cases half <;> rcases prime with _ | _ | _ <;> rfl
  | cons c cs =>
    -- a suffix is taken just if the spelling has it, and reading stops in front of `c`
    have hwide := h.head_ne_wide c rfl
    have hhalf := h.head_ne_half c rfl
    have hprime := h.head_not_prime c rfl
    cases wide <;> cases half <;> rcases prime with _ | _ | _ <;>
      simp [Token.readMove, Spelling.suffix, Spelling.move, accept, PrimeMark.char, hwide, hhalf,
        hprime] <;> simp [isPrime]

/-! ## Unambiguity -/

namespace Spelling

theorem eq_of_suffix_eq {first second : Spelling} (hletter : first.letter = second.letter)
    (hsuffix : first.suffix = second.suffix) : first = second := by
  -- each part can be read off the suffixes by looking for its characters
  have hwide : ∀ spelling : Spelling, spelling.wide = spelling.suffix.contains 'w' := by
    rintro ⟨letter, wide, half, prime⟩
    cases wide <;> cases half <;> rcases prime with _ | _ | _ <;> rfl
  have hhalf : ∀ spelling : Spelling, spelling.half = spelling.suffix.contains '2' := by
    rintro ⟨letter, wide, half, prime⟩
    cases wide <;> cases half <;> rcases prime with _ | _ | _ <;> rfl
  have hprime : ∀ spelling : Spelling, spelling.prime =
      if spelling.suffix.contains '\x27' then some .apostrophe
      else if spelling.suffix.contains '\x60' then some .grave else none := by
    rintro ⟨letter, wide, half, prime⟩
    cases wide <;> cases half <;> rcases prime with _ | _ | _ <;> rfl
  apply Spelling.ext hletter
  · rw [hwide, hwide, hsuffix]
  · rw [hhalf, hhalf, hsuffix]
  · rw [hprime, hprime, hsuffix]

/-- Spellings in front of delimited texts are told apart by the whole. -/
theorem text_append_injective {first second : Spelling} {rest rest' : List Char}
    (hrest : Delimited rest) (hrest' : Delimited rest')
    (h : first.text ++ rest = second.text ++ rest') : first = second ∧ rest = rest' := by
  have hletter : first.letter = second.letter := Letter.char_injective (List.cons.inj h).1
  have hsuffix : first.suffix ++ rest = second.suffix ++ rest' := (List.cons.inj h).2
  -- both readings start from the same text, so they leave the same rest
  have hread := readMove_suffix first hrest
  have hread' := readMove_suffix second hrest'
  rw [← hletter, ← hsuffix, hread] at hread'
  obtain rfl : rest = rest' := congrArg Prod.snd hread'
  exact ⟨eq_of_suffix_eq hletter (List.append_cancel_right hsuffix), rfl⟩

end Spelling

/-- What may stand behind a sequence: nothing, or the parenthesis that closes it. -/
def Closed (cs : List Char) : Prop :=
  ∀ c ∈ cs.head?, c = ')'

theorem closed_nil : Closed [] := by
  intro c hc
  cases hc

theorem closed_closing (cs : List Char) : Closed (')' :: cs) := by
  intro c hc
  cases hc
  rfl

theorem Closed.delimited {cs : List Char} (h : Closed cs) : Delimited cs := by
  intro c hc
  rw [h c hc]
  decide

/-- The token of the item that a text starts with: nothing if it starts with no item, and no token
if the item is a separator. -/
def firstItem? : List Char → Option (Option Token)
  | [] => none
  | c :: cs =>
    match (Token.read c cs).1 with
    | some (.closing _) => none
    | token => some token

namespace Phrase

/-- The token of the first item of a sequence. -/
def firstItem? : Phrase → Option (Option Token)
  | empty => none
  | separator _ _ _ => some none
  | move spelling _ => some (some (.move spelling.move))
  | group _ _ _ => some (some .opening)

theorem firstItem?_text_append (phrase : Phrase) {rest : List Char} (h : Closed rest) :
    Notation.firstItem? (phrase.text ++ rest) = phrase.firstItem? := by
  cases phrase with
  | empty =>
    change Notation.firstItem? rest = none
    cases rest with
    | nil => rfl
    | cons c cs =>
      obtain rfl := h c rfl
      rw [Notation.firstItem?, Token.read_closing]
  | separator c hc phrase =>
    change Notation.firstItem? (c :: (phrase.text ++ rest)) = some none
    rw [Notation.firstItem?, Token.read_separator _ hc]
  | move spelling phrase =>
    rw [text_move_append, Notation.firstItem?, Token.read_letter,
      readMove_suffix spelling (phrase.delimited_text_append h.delimited), firstItem?]
  | group inner digits phrase =>
    rw [text_group_append, Notation.firstItem?, Token.read_opening, firstItem?]

theorem firstItem?_eq_of_append {phrase other : Phrase} {rest rest' : List Char}
    (hrest : Closed rest) (hrest' : Closed rest')
    (h : phrase.text ++ rest = other.text ++ rest') : phrase.firstItem? = other.firstItem? := by
  rw [← phrase.firstItem?_text_append hrest, h, other.firstItem?_text_append hrest']

/-- Sequences in front of what may stand behind them are told apart by the whole. -/
theorem text_append_injective (phrase other : Phrase) {rest rest' : List Char} (hrest : Closed rest)
    (hrest' : Closed rest') (h : phrase.text ++ rest = other.text ++ rest') :
    phrase = other ∧ rest = rest' := by
  -- the first item has the same kind on both sides; peel it off and go on behind it
  induction phrase generalizing other rest rest' with
  | empty =>
    have hitem := firstItem?_eq_of_append hrest hrest' h
    cases other with
    | empty => exact ⟨rfl, h⟩
    | separator _ _ _ => cases hitem
    | move _ _ => cases hitem
    | group _ _ _ => cases hitem
  | separator c hc phrase ih =>
    have hitem := firstItem?_eq_of_append hrest hrest' h
    cases other with
    | empty => cases hitem
    | separator c' hc' other =>
      obtain ⟨rfl, htail⟩ := List.cons.inj h
      obtain ⟨rfl, hsame⟩ := ih other hrest hrest' htail
      exact ⟨rfl, hsame⟩
    | move _ _ => cases hitem
    | group _ _ _ => cases hitem
  | move spelling phrase ih =>
    have hitem := firstItem?_eq_of_append hrest hrest' h
    cases other with
    | empty => cases hitem
    | separator _ _ _ => cases hitem
    | move spelling' other =>
      rw [text, text, List.append_assoc, List.append_assoc] at h
      obtain ⟨rfl, htail⟩ := Spelling.text_append_injective
        (phrase.delimited_text_append hrest.delimited)
        (other.delimited_text_append hrest'.delimited) h
      obtain ⟨rfl, hsame⟩ := ih other hrest hrest' htail
      exact ⟨rfl, hsame⟩
    | group _ _ _ => cases hitem
  | group inner digits phrase ihInner ih =>
    have hitem := firstItem?_eq_of_append hrest hrest' h
    cases other with
    | empty => cases hitem
    | separator _ _ _ => cases hitem
    | move _ _ => cases hitem
    | group inner' digits' other =>
      rw [text_group_append, text_group_append] at h
      -- the inner sequences stand in front of their closing parentheses
      obtain ⟨rfl, hbehind⟩ :=
        ihInner inner' (closed_closing _) (closed_closing _) (List.cons.inj h).2
      -- the digits end where the rest of the sequence begins
      obtain ⟨hdigits, htail⟩ := append_injective_of_kind digits.property digits'.property
        (phrase.delimited_text_append hrest.delimited).head_not_digit
        (other.delimited_text_append hrest'.delimited).head_not_digit (List.cons.inj hbehind).2
      obtain rfl := Subtype.ext hdigits
      obtain ⟨rfl, hsame⟩ := ih other hrest hrest' htail
      exact ⟨rfl, hsame⟩

/-- The grammar is unambiguous: a text has at most one derivation. -/
theorem text_injective {phrase other : Phrase} (h : phrase.text = other.text) : phrase = other := by
  refine (text_append_injective phrase other closed_nil closed_nil ?_).1
  rw [h]

end Phrase

end LastLayer.Notation
