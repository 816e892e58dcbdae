import LastLayer.Move
import LastLayer.Text.Blank

/-!
# Tokens of move notation

A text in move notation is cut into tokens: moves, opening parentheses, and closing parentheses
with the digits of their repeat count. Blanks and commas separate tokens and stand for nothing
themselves. A move is a letter, then `w` if it is widened, then `2` for a half turn, then an
apostrophe or a grave accent for a turn backwards; a half turn backwards is a half turn. Every
suffix is read whenever it is there, so a token is as long as it can be.

Any other character is a token of its own, so scanning never fails. The main statements
(`Token.scan_nil`, `Token.scan_cons`) describe the tokens of a text from its first character on.
-/

namespace LastLayer.Notation

/-- A token of move notation. -/
inductive Token where
  /-- A move with all its suffixes. -/
  | move (move : Move)
  /-- An opening parenthesis. -/
  | opening
  /-- A closing parenthesis and the digits right behind it. -/
  | closing (digits : List Char)
  /-- A character that starts no token. -/
  | unknown (c : Char)
deriving DecidableEq

/-- Whether a character only separates tokens. -/
def isSeparator (c : Char) : Bool :=
  Text.isBlank c || c == ','

/-- Whether a character marks a turn backwards: an apostrophe or a grave accent. -/
def isPrime (c : Char) : Bool :=
  c == '\x27' || c == '\x60'

/-- Take one character off the front of a sequence if it satisfies a condition, and say whether one
was taken. -/
def accept (condition : Char → Bool) : List Char → Bool × List Char
  | [] => (false, [])
  | c :: cs => if condition c then (true, cs) else (false, c :: cs)

theorem length_accept_le (condition : Char → Bool) (cs : List Char) :
    (accept condition cs).2.length ≤ cs.length := by
  cases cs with
  | nil => simp [accept]
  | cons c cs =>
    simp only [accept]
    split <;> simp

namespace Token

/-- The move of a letter with the suffixes that follow it, and the rest of the text. -/
def readMove (letter : Letter) (cs : List Char) : Move × List Char :=
  let wide := accept (· == 'w') cs
  let half := accept (· == '2') wide.2
  let prime := accept isPrime half.2
  (⟨if wide.1 then letter.widened else letter,
    if half.1 then .half else if prime.1 then .prime else .quarter⟩, prime.2)

-- The lemmas `read_separator` to `read_letter` say what is read, so nothing needs to unfold it.
/-- The token that starts with a given character, none for a separator, and the rest of the
text. -/
@[irreducible]
def read (c : Char) (cs : List Char) : Option Token × List Char :=
  if isSeparator c then
    (none, cs)
  else if c = '(' then
    (some .opening, cs)
  else if c = ')' then
    (some (.closing (cs.takeWhile Char.isDigit)), cs.dropWhile Char.isDigit)
  else
    match Letter.ofChar? c with
    | some letter => (some (.move (readMove letter cs).1), (readMove letter cs).2)
    | none => (some (.unknown c), cs)

theorem length_readMove_le (letter : Letter) (cs : List Char) :
    (readMove letter cs).2.length ≤ cs.length :=
  Nat.le_trans (length_accept_le _ _) (Nat.le_trans (length_accept_le _ _) (length_accept_le _ _))

/-- Reading a token never gives text back. -/
theorem length_read_le (c : Char) (cs : List Char) : (read c cs).2.length ≤ cs.length := by
  unfold read
  split
  · exact Nat.le_refl _
  split
  · exact Nat.le_refl _
  split
  · exact (List.dropWhile_suffix Char.isDigit).length_le
  split
  · rename_i letter _
    exact length_readMove_le letter cs
  · exact Nat.le_refl _

/-- A separator stands for no token. -/
theorem read_separator {c : Char} (cs : List Char) (h : isSeparator c = true) :
    read c cs = (none, cs) := by
  unfold read
  rw [if_pos h]

theorem read_opening (cs : List Char) : read '(' cs = (some .opening, cs) := by
  unfold read
  rw [if_neg (by decide), if_pos rfl]

/-- A closing parenthesis takes all the digits right behind it. -/
theorem read_closing (cs : List Char) :
    read ')' cs = (some (.closing (cs.takeWhile Char.isDigit)), cs.dropWhile Char.isDigit) := by
  unfold read
  rw [if_neg (by decide), if_neg (by decide), if_pos rfl]

/-- A letter takes its suffixes. -/
theorem read_letter (letter : Letter) (cs : List Char) :
    read letter.char cs = (some (.move (readMove letter cs).1), (readMove letter cs).2) := by
  have hplain : ¬ isSeparator letter.char ∧ letter.char ≠ '(' ∧ letter.char ≠ ')' := by
    cases letter <;> decide
  unfold read
  rw [if_neg hplain.1, if_neg hplain.2.1, if_neg hplain.2.2, Letter.ofChar?_char]

/-- A character that starts nothing else is a token of its own. -/
theorem read_unknown {c : Char} (cs : List Char) (hseparator : ¬ isSeparator c = true)
    (hopening : c ≠ '(') (hclosing : c ≠ ')') (hletter : Letter.ofChar? c = none) :
    read c cs = (some (.unknown c), cs) := by
  unfold read
  rw [if_neg hseparator, if_neg hopening, if_neg hclosing, hletter]

/-- Put a token, if there is one, behind the tokens that have been read. -/
def pushSome (tokens : Array Token) : Option Token → Array Token
  | some token => tokens.push token
  | none => tokens

theorem toList_pushSome (tokens : Array Token) (token : Option Token) :
    (pushSome tokens token).toList = tokens.toList ++ token.toList := by
  cases token <;> simp [pushSome]

/-- Put the tokens of a text behind the tokens that have been read. -/
def scanAfter (tokens : Array Token) : List Char → Array Token
  | [] => tokens
  | c :: cs => scanAfter (pushSome tokens (read c cs).1) (read c cs).2
termination_by cs => cs.length
decreasing_by exact Nat.lt_succ_of_le (length_read_le c cs)

/-- The tokens of a text. -/
def scan (cs : List Char) : List Token :=
  (scanAfter #[] cs).toList

theorem scanAfter_cons (tokens : Array Token) (c : Char) (cs : List Char) :
    scanAfter tokens (c :: cs) = scanAfter (pushSome tokens (read c cs).1) (read c cs).2 := by
  conv => lhs; rw [scanAfter]

theorem toList_scanAfter (tokens : Array Token) (cs : List Char) :
    (scanAfter tokens cs).toList = tokens.toList ++ scan cs := by
  induction h : cs.length using Nat.strongRecOn generalizing tokens cs with
  | ind n ih =>
    subst h
    cases cs with
    | nil => simp [scan, scanAfter]
    | cons c cs =>
      have hshort : (read c cs).2.length < (c :: cs).length :=
        Nat.lt_succ_of_le (length_read_le c cs)
      unfold scan
      rw [scanAfter_cons, scanAfter_cons, ih _ hshort _ _ rfl, ih _ hshort _ _ rfl,
        toList_pushSome, toList_pushSome]
      simp

/-- The empty text has no tokens. -/
@[simp]
theorem scan_nil : scan [] = [] := by
  simp [scan, scanAfter]

/-- A text starts with the token that its first character starts, unless that is a separator. -/
theorem scan_cons (c : Char) (cs : List Char) :
    scan (c :: cs) = (read c cs).1.toList ++ scan (read c cs).2 := by
  rw [scan, scanAfter_cons, toList_scanAfter, toList_pushSome]
  rfl

end Token

end LastLayer.Notation
