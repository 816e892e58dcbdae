/-!
# Tokens of JSON text

JSON text is cut into tokens: punctuation, the three literals, numbers and strings. White space
between tokens is space, tab, line feed and carriage return. The tokens of numbers and strings keep
what was written, so that a value that is skipped need not have a meaning: the digits of a number
may denote nothing that fits in a double, and an escape in a string may be half of a surrogate pair.
-/

namespace LastLayer.Json

/-- A number as written: `whole.fraction e exponent` with an optional sign. -/
structure NumberText where
  /-- Whether there is a minus sign. -/
  negative : Bool
  /-- The digits before the point; no zero leads other digits. -/
  whole : List Char
  /-- The digits behind the point, if there is one. -/
  fraction : Option (List Char)
  /-- The exponent, if there is one. -/
  exponent : Option Int

/-- A piece of a string as written. -/
inductive Piece where
  /-- A character that stands for itself or was escaped by a letter. -/
  | char (c : Char)
  /-- A code unit of UTF-16, escaped by four hexadecimal digits. -/
  | unit (code : Nat)

/-- A token of JSON text. -/
inductive Token where
  | openBracket
  | closeBracket
  | openBrace
  | closeBrace
  | comma
  | colon
  | null
  | bool (value : Bool)
  | number (text : NumberText)
  | string (pieces : List Piece)

namespace Token

/-- Whether a character is white space between tokens. -/
def isSpace (c : Char) : Bool :=
  c == ' ' || c == '\t' || c == '\n' || c == '\r'

/-- A nonempty run of digits and what follows it. -/
def readDigits? (cs : List Char) : Option (List Char × List Char) :=
  match cs.takeWhile Char.isDigit with
  | [] => none
  | digits => some (digits, cs.dropWhile Char.isDigit)

/-- The digits before the point: a single zero, or digits that start with another one. -/
def readWhole? : List Char → Option (List Char × List Char)
  | '0' :: cs => some (['0'], cs)
  | cs => readDigits? cs

/-- A point with the digits behind it, if a point is there. -/
def readFraction? : List Char → Option (Option (List Char) × List Char)
  | '.' :: cs => (readDigits? cs).map fun (digits, rest) => (some digits, rest)
  | cs => some (none, cs)

/-- The sign of an exponent: whether it is a minus, and what follows it. -/
def readSign : List Char → Bool × List Char
  | '-' :: cs => (true, cs)
  | '+' :: cs => (false, cs)
  | cs => (false, cs)

/-- An exponent, if its letter is there. -/
def readExponent? : List Char → Option (Option Int × List Char)
  | [] => some (none, [])
  | c :: cs =>
    if c = 'e' ∨ c = 'E' then
      (readDigits? (readSign cs).2).map fun (digits, rest) =>
        let size : Int := Nat.ofDigitChars 10 digits 0
        (some (if (readSign cs).1 then -size else size), rest)
    else
      some (none, c :: cs)

/-- A number whose sign has been read. -/
def readNumber? (negative : Bool) (cs : List Char) : Option (Token × List Char) :=
  (readWhole? cs).bind fun (whole, afterWhole) =>
    (readFraction? afterWhole).bind fun (fraction, afterFraction) =>
      (readExponent? afterFraction).map fun (exponent, rest) =>
        (.number ⟨negative, whole, fraction, exponent⟩, rest)

/-- The value of a hexadecimal digit. -/
def hexValue? (c : Char) : Option Nat :=
  if '0' ≤ c ∧ c ≤ '9' then some (c.toNat - '0'.toNat)
  else if 'a' ≤ c ∧ c ≤ 'f' then some (c.toNat - 'a'.toNat + 10)
  else if 'A' ≤ c ∧ c ≤ 'F' then some (c.toNat - 'A'.toNat + 10)
  else none

/-- The code unit that four hexadecimal digits stand for. -/
def unit? (first second third fourth : Char) : Option Piece :=
  (hexValue? first).bind fun a =>
    (hexValue? second).bind fun b =>
      (hexValue? third).bind fun c =>
        (hexValue? fourth).map fun d => .unit (((a * 16 + b) * 16 + c) * 16 + d)

/-- The character that a letter behind a backslash stands for. -/
def unescape? (c : Char) : Option Piece :=
  if c = '"' ∨ c = '\\' ∨ c = '/' then some (.char c)
  else if c = 'b' then some (.char '\x08')
  else if c = 'f' then some (.char '\x0c')
  else if c = 'n' then some (.char '\n')
  else if c = 'r' then some (.char '\r')
  else if c = 't' then some (.char '\t')
  else none

/-- The pieces of a string up to its closing quotation mark, behind the pieces read before, which
are given last one first. -/
def readPieces? (pieces : List Piece) : List Char → Option (List Piece × List Char)
  | [] => none
  | '"' :: cs => some (pieces.reverse, cs)
  | '\\' :: 'u' :: a :: b :: c :: d :: cs =>
    match unit? a b c d with
    | some piece => readPieces? (piece :: pieces) cs
    | none => none
  | '\\' :: c :: cs =>
    match unescape? c with
    | some piece => readPieces? (piece :: pieces) cs
    | none => none
  | c :: cs => if c = '\\' ∨ c.toNat < 0x20 then none else readPieces? (.char c :: pieces) cs

/-- Drop an expected beginning from a sequence. -/
def dropExact? : List Char → List Char → Option (List Char)
  | [], cs => some cs
  | _ :: _, [] => none
  | expected :: rest, c :: cs => if expected = c then dropExact? rest cs else none

/-- The token that a punctuation mark is. -/
def punctuation? (c : Char) : Option Token :=
  if c = '[' then some .openBracket
  else if c = ']' then some .closeBracket
  else if c = '\x7b' then some .openBrace
  else if c = '\x7d' then some .closeBrace
  else if c = ',' then some .comma
  else if c = ':' then some .colon
  else none

/-- The literal that a letter starts, and its other letters. -/
def literal? (c : Char) : Option (Token × List Char) :=
  if c = 'n' then some (.null, ['u', 'l', 'l'])
  else if c = 't' then some (.bool true, ['r', 'u', 'e'])
  else if c = 'f' then some (.bool false, ['a', 'l', 's', 'e'])
  else none

/-- The token that starts with a given character, and what follows it. -/
def read? (c : Char) (cs : List Char) : Option (Token × List Char) :=
  match punctuation? c, literal? c with
  | some token, _ => some (token, cs)
  | none, some (token, letters) => (dropExact? letters cs).map fun rest => (token, rest)
  | none, none =>
    if c = '"' then (readPieces? [] cs).map fun (pieces, rest) => (.string pieces, rest)
    else if c = '-' then readNumber? true cs
    else readNumber? false (c :: cs)

/-! ## Every token takes text -/

theorem length_of_readDigits? {cs rest digits : List Char}
    (h : readDigits? cs = some (digits, rest)) : rest.length < cs.length := by
  unfold readDigits? at h
  split at h
  · simp at h
  · rename_i hne
    have htotal := congrArg List.length (List.takeWhile_append_dropWhile (p := Char.isDigit) (l := cs))
    have hpos : 0 < (cs.takeWhile Char.isDigit).length := List.length_pos_iff.2 (hne ·)
    simp only [Option.some.injEq, Prod.mk.injEq] at h
    rw [List.length_append, h.2] at htotal
    omega

theorem length_of_readWhole? {cs rest digits : List Char}
    (h : readWhole? cs = some (digits, rest)) : rest.length < cs.length := by
  unfold readWhole? at h
  split at h
  · simp_all
  · exact length_of_readDigits? h

theorem length_of_readFraction? {cs rest : List Char} {digits : Option (List Char)}
    (h : readFraction? cs = some (digits, rest)) : rest.length ≤ cs.length := by
  unfold readFraction? at h
  split at h
  · obtain ⟨⟨_, _⟩, hdigits, heq⟩ := Option.map_eq_some_iff.1 h
    have hshort := length_of_readDigits? hdigits
    simp only [Prod.mk.injEq] at heq
    rw [← heq.2, List.length_cons]
    omega
  · simp_all

theorem length_readSign_le (cs : List Char) : (readSign cs).2.length ≤ cs.length := by
  unfold readSign
  split <;> simp

theorem length_of_readExponent? {cs rest : List Char} {exponent : Option Int}
    (h : readExponent? cs = some (exponent, rest)) : rest.length ≤ cs.length := by
  unfold readExponent? at h
  split at h
  · simp_all
  split at h
  · rename_i cs _
    obtain ⟨⟨_, _⟩, hdigits, heq⟩ := Option.map_eq_some_iff.1 h
    have hshort := length_of_readDigits? hdigits
    have hsign := length_readSign_le cs
    simp only [Prod.mk.injEq] at heq
    rw [← heq.2, List.length_cons]
    omega
  · simp_all

theorem length_of_readNumber? {negative : Bool} {cs rest : List Char} {token : Token}
    (h : readNumber? negative cs = some (token, rest)) : rest.length < cs.length := by
  unfold readNumber? at h
  obtain ⟨⟨whole, afterWhole⟩, hwhole, h⟩ := Option.bind_eq_some_iff.1 h
  obtain ⟨⟨fraction, afterFraction⟩, hfraction, h⟩ := Option.bind_eq_some_iff.1 h
  obtain ⟨⟨exponent, afterExponent⟩, hexponent, heq⟩ := Option.map_eq_some_iff.1 h
  have hshort := length_of_readWhole? hwhole
  have hnext := length_of_readFraction? hfraction
  have hlast := length_of_readExponent? hexponent
  simp only [Prod.mk.injEq] at heq
  rw [← heq.2]
  omega

theorem length_of_readPieces? {pieces found : List Piece} {cs rest : List Char}
    (h : readPieces? pieces cs = some (found, rest)) : rest.length < cs.length := by
  fun_induction readPieces? pieces cs with
  | case1 => simp at h
  | case2 => simp_all
  | case3 pieces a b c d cs piece hunit ih =>
    have hshort := ih h
    simp only [List.length_cons]
    omega
  | case4 => simp at h
  | case5 pieces c cs hletter piece hescape ih =>
    have hshort := ih h
    simp only [List.length_cons]
    omega
  | case6 => simp at h
  | case7 => simp at h
  | case8 pieces c cs hquote hunit hescape hplain ih =>
    have hshort := ih h
    simp only [List.length_cons]
    omega

theorem length_of_dropExact? {expected cs rest : List Char}
    (h : dropExact? expected cs = some rest) : rest.length ≤ cs.length := by
  fun_induction dropExact? expected cs with
  | case1 cs => simp_all
  | case2 => simp at h
  | case3 expected c cs ih =>
    have hshort := ih h
    simp only [List.length_cons]
    omega
  | case4 => simp at h

/-- Reading a token never gives text back. -/
theorem length_of_read? {c : Char} {cs rest : List Char} {token : Token}
    (h : read? c cs = some (token, rest)) : rest.length ≤ cs.length := by
  unfold read? at h
  split at h
  · simp_all
  · obtain ⟨_, hletters, heq⟩ := Option.map_eq_some_iff.1 h
    simp only [Prod.mk.injEq] at heq
    exact heq.2 ▸ length_of_dropExact? hletters
  split at h
  · obtain ⟨⟨_, _⟩, hpieces, heq⟩ := Option.map_eq_some_iff.1 h
    simp only [Prod.mk.injEq] at heq
    exact heq.2 ▸ Nat.le_of_lt (length_of_readPieces? hpieces)
  split at h
  · exact Nat.le_of_lt (length_of_readNumber? h)
  · exact Nat.le_of_lt_succ (length_of_readNumber? h)

/-- Put the tokens of a text behind the tokens that have been read. -/
def scanAfter? (tokens : Array Token) : List Char → Option (Array Token)
  | [] => some tokens
  | c :: cs =>
    if isSpace c then
      scanAfter? tokens cs
    else
      match _ : read? c cs with
      | none => none
      | some (token, rest) => scanAfter? (tokens.push token) rest
termination_by cs => cs.length
decreasing_by
  · simp
  · exact Nat.lt_succ_of_le (length_of_read? (by assumption))

/-- The tokens of a text, if it can be cut into tokens. -/
def scan? (cs : List Char) : Option (List Token) :=
  (scanAfter? #[] cs).map Array.toList

end Token

end LastLayer.Json
