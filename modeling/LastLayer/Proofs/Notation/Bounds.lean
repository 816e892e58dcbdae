import LastLayer.Proofs.Notation.Steps

/-!
# The limit on repeated groups

Repeated groups within repeated groups could multiply the moves of a short text without end. The
limit prevents this, though it is checked only when a group closes, and there it counts moves that
have been repeated and others alike (`Algorithm.expansion_is_bounded`).

A group is rejected before it is copied (`Reader.exists_closing_of_failed`), and computing its
length in words of 64 bits is computing it exactly (`Words.length?_eq`).
-/

namespace LastLayer.Notation

/-! ## Comparing in words -/

namespace Words

/-- A number as a word, unless it takes more than 64 bits. -/
def ofNat? (n : Nat) : Option UInt64 :=
  if n < UInt64.size then some (.ofNat n) else none

/-- The product of two words, unless it takes more than 64 bits. -/
def mul? (first second : UInt64) : Option UInt64 :=
  if second = 0 then some 0
  else if first ≤ .ofNat (UInt64.size - 1) / second then some (first * second) else none

/-- The sum of two words, unless it takes more than 64 bits. -/
def add? (first second : UInt64) : Option UInt64 :=
  if first ≤ first + second then some (first + second) else none

/-- The length of a sequence with copies of a group behind it, if that is within the limit. -/
def length? (sequence group count : UInt64) : Option UInt64 :=
  ((mul? group count).bind (add? sequence)).filter (· ≤ .ofNat maxMoves)

theorem mul?_eq (first second : UInt64) :
    mul? first second = ofNat? (first.toNat * second.toNat) := by
  rw [mul?, ofNat?]
  by_cases hzero : second = 0
  · simp [hzero, UInt64.size]
  · have hpositive : 0 < second.toNat :=
      Nat.pos_of_ne_zero fun h => hzero (UInt64.toNat.inj h)
    -- the division tells whether the product is too great without computing it
    have hfits : first ≤ .ofNat (UInt64.size - 1) / second ↔
        first.toNat * second.toNat < UInt64.size := by
      have hgreatest : (UInt64.ofNat (UInt64.size - 1)).toNat = UInt64.size - 1 := rfl
      rw [UInt64.le_iff_toNat_le, UInt64.toNat_div, hgreatest, Nat.le_div_iff_mul_le hpositive]
      exact Nat.le_sub_one_iff_lt (by decide)
    rw [if_neg hzero]
    simp only [hfits, UInt64.ofNat_mul, UInt64.ofNat_toNat]

theorem add?_eq (first second : UInt64) :
    add? first second = ofNat? (first.toNat + second.toNat) := by
  have hfirst : first.toNat < UInt64.size := first.toNat_lt
  have hsecond : second.toNat < UInt64.size := second.toNat_lt
  -- a sum that is cut off is less than both summands
  have hfits : first ≤ first + second ↔ first.toNat + second.toNat < UInt64.size := by
    have hsum : (first + second).toNat = (first.toNat + second.toNat) % UInt64.size :=
      UInt64.toNat_add first second
    rw [UInt64.le_iff_toNat_le, hsum]
    constructor
    · intro hle
      by_contra hlarge
      rw [Nat.mod_eq_sub_mod (by omega), Nat.mod_eq_of_lt (by omega)] at hle
      omega
    · intro hlt
      rw [Nat.mod_eq_of_lt hlt]
      exact Nat.le_add_right _ _
  rw [add?, ofNat?]
  simp only [hfits, UInt64.ofNat_add, UInt64.ofNat_toNat]

/-- Comparing in words is comparing exactly: nothing is cut off. -/
theorem length?_eq (sequence group count : UInt64) :
    length? sequence group count =
      if sequence.toNat + group.toNat * count.toNat ≤ maxMoves then
        some (.ofNat (sequence.toNat + group.toNat * count.toNat))
      else none := by
  have hmax : maxMoves < UInt64.size := by decide
  rw [length?, mul?_eq]
  by_cases hproduct : group.toNat * count.toNat < UInt64.size
  · rw [ofNat?, if_pos hproduct, Option.bind_some, add?_eq, UInt64.toNat_ofNat_of_lt' hproduct]
    by_cases hsum : sequence.toNat + group.toNat * count.toNat < UInt64.size
    · have hle : UInt64.ofNat (sequence.toNat + group.toNat * count.toNat) ≤ .ofNat maxMoves ↔
          sequence.toNat + group.toNat * count.toNat ≤ maxMoves := by
        rw [UInt64.le_iff_toNat_le, UInt64.toNat_ofNat_of_lt' hsum, UInt64.toNat_ofNat_of_lt' hmax]
      rw [ofNat?, if_pos hsum, Option.filter_some]
      simp only [decide_eq_true_iff, hle]
    · rw [ofNat?, if_neg hsum, if_neg (by omega)]
      rfl
  · rw [ofNat?, if_neg hproduct, if_neg (by omega)]
    rfl

end Words

/-! ## Rejected groups -/

namespace Token

/-- The digits of a closing parenthesis stand right behind it in the text. -/
theorem exists_closing_of_mem_scan {cs digits : List Char} (h : .closing digits ∈ scan cs) :
    ∃ front back, cs = front ++ ')' :: (digits ++ back) ∧ (∀ c ∈ digits, c.isDigit = true) ∧
      ∀ c ∈ back.head?, c.isDigit = false := by
  -- one more item in front of the text
  have hbehind : ∀ {cs : List Char} (item : List Char),
      (∃ front back, cs = front ++ ')' :: (digits ++ back) ∧ (∀ c ∈ digits, c.isDigit = true) ∧
        ∀ c ∈ back.head?, c.isDigit = false) →
      ∃ front back, item ++ cs = front ++ ')' :: (digits ++ back) ∧
        (∀ c ∈ digits, c.isDigit = true) ∧ ∀ c ∈ back.head?, c.isDigit = false := by
    rintro cs item ⟨front, back, rfl, hdigits, hback⟩
    exact ⟨item ++ front, back, by rw [List.append_assoc], hdigits, hback⟩
  induction cs using item_induction with
  | nil => rw [scan_nil] at h; cases h
  | separator c cs hc ih =>
    rw [scan_cons, read_separator cs hc] at h
    exact hbehind [c] (ih h)
  | opening cs ih =>
    rw [scan_cons, read_opening] at h
    rcases List.mem_cons.1 h with hsame | h
    · cases hsame
    · exact hbehind ['('] (ih h)
  | closing own rest hrest ih =>
    rw [scan_closing own hrest] at h
    rcases List.mem_cons.1 h with hsame | h
    · obtain rfl := Token.closing.inj hsame
      exact ⟨[], rest, rfl, own.property, hrest⟩
    · exact hbehind (')' :: own.val) (ih h)
  | move spelling rest hrest ih =>
    rw [scan_spelling spelling hrest] at h
    rcases List.mem_cons.1 h with hsame | h
    · cases hsame
    · exact hbehind spelling.text (ih h)
  | unknown c cs hseparator hopening hclosing hletter ih =>
    rw [scan_cons, read_unknown cs hseparator hopening hclosing hletter] at h
    rcases List.mem_cons.1 h with hsame | h
    · cases hsame
    · exact hbehind [c] (ih h)

end Token

namespace Reader

variable {reader next : Reader}

/-- Only a group that is to close is rejected because of its repeat count. When that is reported,
the group has been taken off the sequence around it, and this sequence is as it was. -/
theorem exists_closing_of_failed {tokens : List Token} {count : String}
    (h : Reaches (start tokens) next) (hstage : next.stage = .failed (.repeatCount count)) :
    ∃ group sequence enclosing digits,
      Reaches (start tokens)
        ⟨⟨group, sequence :: enclosing⟩, .ready, .closing digits :: next.tokens⟩ ∧
      next.expansion = ⟨sequence, enclosing⟩ ∧
      (repeatCount? digits = none ∧ count = String.ofList digits ∨
        ∃ n, repeatCount? digits = some n ∧ maxMoves < sequence.size + group.size * n ∧
          count = toString n) := by
  cases h with
  | refl => cases hstage
  | tail hreaches hstep =>
    cases hstep with
    | oversized hdigits =>
      cases hstage
      exact ⟨_, _, _, _, hreaches, rfl, .inl ⟨hdigits, rfl⟩⟩
    | overlong hdigits hlimit =>
      cases hstage
      exact ⟨_, _, _, _, hreaches, rfl, .inr ⟨_, hdigits, Nat.lt_of_not_le hlimit, rfl⟩⟩
    | _ => cases hstage

theorem isFinal_of_failed {error : Error} (h : reader.stage = .failed error) : reader.IsFinal := by
  intro next hstep
  cases hstep <;> cases h

end Reader

/-! ## Numerals -/

/-- A decimal numeral of a number, without leading zeros. -/
structure IsNumeral (n : Nat) (text : List Char) : Prop where
  /-- There are digits and nothing else. -/
  isDigit : text ≠ [] ∧ ∀ c ∈ text, c.isDigit = true
  /-- They stand for the number. -/
  value : Nat.ofDigitChars 10 text 0 = n
  /-- Only the numeral of zero starts with a zero. -/
  leading : text.head? = some '0' → text = ['0']

theorem head?_toDigits {n : Nat} (h : (Nat.toDigits 10 n).head? = some '0') : n = 0 := by
  induction n using Nat.strongRecOn with
  | ind n ih =>
    rw [Nat.toDigits_eq_if (by decide)] at h
    split at h
    next hsmall =>
      have hdigits : ∀ d < 10, [Nat.digitChar d].head? = some '0' → d = 0 := by decide
      exact hdigits n hsmall h
    next hlarge =>
      -- the numeral of the tenth part comes first, and it is not empty
      rw [List.head?_append_of_ne_nil _ Nat.toDigits_ne_nil] at h
      have htenth : n / 10 = 0 := ih (n / 10) (by omega) h
      omega

theorem isNumeral_toString (n : Nat) : IsNumeral n (toString n).toList := by
  rw [show (toString n).toList = Nat.toDigits 10 n from Nat.toList_repr]
  refine ⟨⟨Nat.toDigits_ne_nil, fun c hc => Nat.isDigit_of_mem_toDigits (by decide) (by decide) hc⟩,
    Nat.ofDigitChars_ten_toDigits, fun h => ?_⟩
  rw [head?_toDigits h]
  rfl

theorem lt_of_repeatCount? {digits : List Char} {count : Nat}
    (h : repeatCount? digits = some count) : count < UInt64.size := by
  unfold repeatCount? at h
  split at h
  · obtain rfl := Option.some.inj h
    decide
  · dsimp only at h
    split at h
    next hlt => exact Option.some.inj h ▸ hlt
    next => cases h

/-- The length that is compared with the limit is the exact one. -/
theorem Words.toNat_length?_of_repeatCount? {sequence group : UInt64} {digits : List Char}
    {count : Nat} (h : repeatCount? digits = some count) :
    (length? sequence group (.ofNat count)).map UInt64.toNat =
      if sequence.toNat + group.toNat * count ≤ maxMoves then
        some (sequence.toNat + group.toNat * count)
      else none := by
  rw [length?_eq, UInt64.toNat_ofNat_of_lt' (lt_of_repeatCount? h)]
  split
  next hlimit =>
    have hword : sequence.toNat + group.toNat * count < UInt64.size :=
      hlimit.trans_lt (by decide)
    rw [Option.map_some, UInt64.toNat_ofNat_of_lt' hword]
  next => rfl

end LastLayer.Notation

namespace LastLayer.Algorithm

open Notation

variable {text : String}

/-- A reader holds no sequence that is longer than the limit by more than the text has
characters. -/
theorem size_le_of_reaches {reader : Reader}
    (h : (Reader.start (Token.scan text.toList)).Reaches reader) :
    ∀ sequence ∈ reader.sequences, sequence.size ≤ maxMoves + text.length := by
  intro sequence hsequence
  have hsize := ((Reader.fits_start _).of_reaches h).size_le sequence hsequence
  have hletters : letterCount text.toList ≤ text.length := by
    rw [← String.length_toList]
    exact List.countP_le_length
  rw [Token.countP_isMove_scan] at hsize
  omega

/-- The steps come to what a text is read as. -/
theorem parse_eq_of_reaches {final : Reader}
    (h : (Reader.start (Token.scan text.toList)).Reaches final) (hfinal : final.IsFinal) :
    parse text = final.outcome.bind Expansion.finish := by
  rw [← hfinal.prospect_eq, ← Reader.prospect_eq_of_reaches h]
  rfl

/-- The expansion of a text is bounded. A text without groups has one move for each letter, and any
other text that is read has at most `maxMoves` moves and the letters behind its last group. On the
way no sequence that is held has more than `maxMoves` moves and one for each character of the text.
The length to which a group would bring the sequence around it comes out exactly, though it is
computed in words of 64 bits. A group that would exceed the limit is rejected before any copy of it
is made, and reported by the numeral of its repeat count without leading zeros, or by the digits of
the text if the count takes more than 64 bits. -/
theorem expansion_is_bounded (text : String) :
    let reader := Reader.start (Token.scan text.toList)
    (∀ algorithm, parse text = .ok algorithm →
      (')' ∉ text.toList → algorithm.length = letterCount text.toList) ∧
      ∀ front back, text.toList = front ++ ')' :: back → ')' ∉ back →
        algorithm.length ≤ maxMoves + letterCount back) ∧
    ((∃ final, reader.Reaches final ∧ final.IsFinal) ∧
      ∀ final, reader.Reaches final → final.IsFinal →
        parse text = final.outcome.bind Expansion.finish) ∧
    (∀ next, reader.Reaches next →
      ∀ sequence ∈ next.sequences, sequence.size ≤ maxMoves + text.length) ∧
    (∀ group sequence enclosing digits tokens count,
      reader.Reaches ⟨⟨group, sequence :: enclosing⟩, .ready, .closing digits :: tokens⟩ →
      repeatCount? digits = some count →
        ∀ sequenceSize groupSize : UInt64, sequenceSize.toNat = sequence.size →
          groupSize.toNat = group.size →
            (Words.length? sequenceSize groupSize (.ofNat count)).map UInt64.toNat =
              if sequence.size + group.size * count ≤ maxMoves then
                some (sequence.size + group.size * count)
              else none) ∧
    ∀ next shown, reader.Reaches next → next.stage = .failed (.repeatCount shown) →
      ∃ (group sequence : Array Move) (enclosing : List (Array Move)) (digits : Digits)
        (front back : List Char),
        reader.Reaches
          ⟨⟨group, sequence :: enclosing⟩, .ready, .closing digits.val :: next.tokens⟩ ∧
        next.expansion = ⟨sequence, enclosing⟩ ∧
        text.toList = front ++ ')' :: (digits.val ++ back) ∧
        (∀ c ∈ back.head?, c.isDigit = false) ∧
        if digits.count < UInt64.size then
          maxMoves < sequence.size + group.size * digits.count ∧
            IsNumeral digits.count shown.toList
        else shown = String.ofList digits.val := by
  intro reader
  refine ⟨?_, ⟨reader.exists_final, fun final => parse_eq_of_reaches⟩,
    fun next => size_le_of_reaches, ?_, ?_⟩
  · intro algorithm h
    exact ⟨length_of_parse_of_notMem h, fun front back => length_of_parse_le h⟩
  · intro group sequence enclosing digits tokens count _ hdigits sequenceSize groupSize hsequence
      hgroup
    rw [← hsequence, ← hgroup]
    exact Words.toNat_length?_of_repeatCount? hdigits
  · intro next shown h hstage
    obtain ⟨group, sequence, enclosing, digits, hclosing, hexpansion, hcount⟩ :=
      Reader.exists_closing_of_failed h hstage
    -- the token has its digits from the text
    have hmem : .closing digits ∈ Token.scan text.toList :=
      (Reader.tokens_suffix_of_reaches hclosing).subset (.head _)
    obtain ⟨front, back, htext, hdigits, hback⟩ := Token.exists_closing_of_mem_scan hmem
    refine ⟨group, sequence, enclosing, ⟨digits, hdigits⟩, front, back, hclosing, hexpansion,
      htext, hback, ?_⟩
    have hrange := repeatCount?_digits ⟨digits, hdigits⟩
    split
    next hsmall =>
      rw [if_pos hsmall] at hrange
      rcases hcount with ⟨hnone, -⟩ | ⟨n, hsome, hlimit, rfl⟩
      · rw [hnone] at hrange
        cases hrange
      · obtain rfl : n = _ := Option.some.inj (hsome.symm.trans hrange)
        exact ⟨hlimit, isNumeral_toString _⟩
    next hlarge =>
      rw [if_neg hlarge] at hrange
      rcases hcount with ⟨-, hshown⟩ | ⟨n, hsome, -, -⟩
      · exact hshown
      · rw [hsome] at hrange
        cases hrange

/-- A group is not made a hundred thousand times behind another move, however the number is written:
it is reported without the leading zero, and nothing has been put behind the other move. -/
theorem expansion_is_bounded_of_texts :
    let group : Array Move := #[⟨.U, .quarter⟩]
    let sequence : Array Move := #[⟨.R, .quarter⟩]
    let digits := ['0', '1', '0', '0', '0', '0', '0']
    let reader := Reader.start (Token.scan "R (U)0100000".toList)
    let next : Reader := ⟨⟨sequence, []⟩, .failed (.repeatCount "100000"), []⟩
    (parse "R U2" = .ok [⟨.R, .quarter⟩, ⟨.U, .half⟩] ∧ 2 = letterCount "R U2".toList) ∧
    (parse "(R)2 U" = .ok [⟨.R, .quarter⟩, ⟨.R, .quarter⟩, ⟨.U, .quarter⟩] ∧
      3 ≤ maxMoves + letterCount "2 U".toList) ∧
    (reader.Reaches ⟨⟨group, [sequence]⟩, .ready, [.closing digits]⟩ ∧
      (Words.length? 1 1 100000).map UInt64.toNat = none) ∧
    reader.Reaches next ∧ (∀ sequence ∈ next.sequences, sequence.size ≤ maxMoves + 12) ∧
      parse "R (U)0100000" = .error (.repeatCount "100000") := by
  intro group sequence digits reader next
  have hflat : parse "R U2" = .ok [⟨.R, .quarter⟩, ⟨.U, .half⟩] := by decide +kernel
  have hgroup : parse "(R)2 U" = .ok [⟨.R, .quarter⟩, ⟨.R, .quarter⟩, ⟨.U, .quarter⟩] := by
    decide +kernel
  have htokens : Token.scan "R (U)0100000".toList =
      [.move ⟨.R, .quarter⟩, .opening, .move ⟨.U, .quarter⟩, .closing digits] := by decide +kernel
  have hdigits : repeatCount? digits = some 100000 := by decide
  have hbefore : reader.Reaches ⟨⟨group, [sequence]⟩, .ready, [.closing digits]⟩ := by
    change (Reader.start (Token.scan _)).Reaches _
    rw [htokens]
    exact .tail (.tail (.tail .refl (.move _)) .opening) (.move _)
  have hnext : reader.Reaches next := .tail hbefore (.overlong hdigits (by decide))
  have hfinal : next.IsFinal := Reader.isFinal_of_failed rfl
  obtain ⟨-, ⟨-, hresult⟩, hsize, hwords, -⟩ := expansion_is_bounded "R (U)0100000"
  refine ⟨⟨hflat, ?_⟩, ⟨hgroup, ?_⟩, ⟨hbefore, ?_⟩, hnext, hsize next hnext, ?_⟩
  · exact ((expansion_is_bounded "R U2").1 _ hflat).1 (by decide)
  · exact ((expansion_is_bounded "(R)2 U").1 _ hgroup).2 ['(', 'R'] _ rfl (by decide)
  · have hlength := hwords _ _ _ _ _ _ hbefore hdigits 1 1 rfl rfl
    rwa [if_neg (by decide)] at hlength
  · exact hresult next hnext hfinal

end LastLayer.Algorithm
