import LastLayer.Proofs.Notation.Concatenation
import Mathlib.Data.List.DropRight

/-!
# Separators

Blanks and commas stand for no token. They end what stands before them, since none of them continues
an item, and that is all they do: it does not matter which of them stand in a place, how many of them
there are, or whether any stand at the ends of a text. So every text has the tokens of the text in
which single spaces stand for all of this (`Token.scan_spaced`), and texts that agree up to separators
are read with the same outcome, be it an algorithm or a fault.
-/

namespace LastLayer.Notation

/-- A text in which every run of separators is replaced by one space. -/
def squeeze : List Char → List Char
  | [] => []
  | c :: cs =>
    if isSeparator c then ' ' :: (squeeze cs).dropWhile isSeparator else c :: squeeze cs

/-- A text in which every run of separators is replaced by one space, without separators at its
ends. -/
def spaced (cs : List Char) : List Char :=
  ((squeeze cs).dropWhile isSeparator).rdropWhile isSeparator

/-! ## Squeezing -/

theorem squeeze_cons_of_not_separator {c : Char} (h : isSeparator c = false) (cs : List Char) :
    squeeze (c :: cs) = c :: squeeze cs := by
  rw [squeeze, if_neg (by simp [h])]

/-- What holds no separators is left as it is. -/
theorem squeeze_append {front : List Char} (h : ∀ c ∈ front, isSeparator c = false)
    (cs : List Char) : squeeze (front ++ cs) = front ++ squeeze cs := by
  induction front with
  | nil => rfl
  | cons c front ih =>
    rw [List.cons_append, squeeze_cons_of_not_separator (h c List.mem_cons_self),
      ih fun c' hc' => h c' (List.mem_cons_of_mem c hc'), List.cons_append]

/-- A squeezed text starts with the character that the text starts with, or with a space. -/
theorem head?_squeeze {kind : Char → Bool} (hspace : kind ' ' = false) {cs : List Char}
    (h : ∀ c ∈ cs.head?, kind c = false) : ∀ c ∈ (squeeze cs).head?, kind c = false := by
  cases cs with
  | nil => exact h
  | cons first cs =>
    rw [squeeze]
    split
    next =>
      rintro c ⟨⟩
      exact hspace
    next =>
      rintro c ⟨⟩
      exact h first rfl

theorem Digits.not_separator (digits : Digits) : ∀ c ∈ digits.val, isSeparator c = false := by
  intro c hc
  rw [← Bool.not_eq_true]
  intro hseparator
  have hcontinues := continuesItem_separator hseparator
  rw [continuesItem, digits.property c hc, Bool.or_true] at hcontinues
  cases hcontinues

theorem Spelling.not_separator (spelling : Spelling) :
    ∀ c ∈ spelling.text, isSeparator c = false := by
  obtain ⟨letter, wide, half, prime⟩ := spelling
  have hletter : isSeparator letter.char = false := by
    cases letter <;> decide
  have hsuffix : isSeparator 'w' = false ∧ isSeparator '2' = false ∧
      isSeparator '\x27' = false ∧ isSeparator '\x60' = false := by decide
  cases wide <;> cases half <;> rcases prime with _ | _ | _ <;>
    simp [Spelling.text, Spelling.suffix, PrimeMark.char, hletter, hsuffix]

/-! ## Tokens -/

namespace Token

theorem scan_separator {c : Char} (h : isSeparator c = true) (cs : List Char) :
    scan (c :: cs) = scan cs := by
  rw [scan_cons, read_separator cs h]
  rfl

theorem scan_separators {cs : List Char} (h : ∀ c ∈ cs, isSeparator c = true) : scan cs = [] := by
  induction cs with
  | nil => exact scan_nil
  | cons c cs ih =>
    rw [scan_separator (h c List.mem_cons_self)]
    exact ih fun c' hc' => h c' (List.mem_cons_of_mem c hc')

section

variable {kind : Char → Bool} (hkind : ∀ c, kind c = true → isSeparator c = true)

include hkind

/-- Separators of any kind in front of a text are no part of a token. -/
theorem scan_dropWhile (cs : List Char) : scan (cs.dropWhile kind) = scan cs := by
  induction cs with
  | nil => rfl
  | cons c cs ih =>
    rw [List.dropWhile_cons]
    split
    next h => rw [ih, scan_separator (hkind c h)]
    next => rfl

/-- Separators of any kind behind a text are no part of a token. -/
theorem scan_rdropWhile (cs : List Char) : scan (cs.rdropWhile kind) = scan cs := by
  have hend : ∀ c ∈ cs.rtakeWhile kind, isSeparator c = true :=
    fun c hc => hkind c (List.mem_rtakeWhile_imp hc)
  -- a separator continues no item, so the text is scanned as if it ended in front of them
  have hdelimited : Delimited (cs.rtakeWhile kind) := fun c hc =>
    continuesItem_separator (hend c (List.mem_of_mem_head? hc))
  calc scan (cs.rdropWhile kind)
      = scan (cs.rdropWhile kind ++ cs.rtakeWhile kind) := by
        rw [scan_append _ hdelimited, scan_separators hend, List.append_nil]
    _ = scan cs := by rw [List.rdropWhile_append_rtakeWhile]

end

/-- Squeezing a text leaves its tokens as they are. -/
theorem scan_squeeze (cs : List Char) : scan (squeeze cs) = scan cs := by
  -- what ends an item still ends it: the squeezed rest starts as the rest does, or with a space
  induction cs using item_induction with
  | nil => rfl
  | separator c cs h ih =>
    rw [squeeze, if_pos h, scan_separator (by decide), scan_dropWhile fun _ => id, ih,
      scan_separator h]
  | opening cs ih =>
    rw [squeeze_cons_of_not_separator (by decide), scan_cons, read_opening, scan_cons, read_opening,
      ih]
  | closing digits rest hrest ih =>
    rw [squeeze_cons_of_not_separator (by decide), squeeze_append digits.not_separator,
      scan_closing digits (head?_squeeze (by decide) hrest), ih, scan_closing digits hrest]
  | move spelling rest hrest ih =>
    have hspace : spelling.takes ' ' = false := by simp [Spelling.takes, isPrime]
    rw [squeeze_append spelling.not_separator,
      scan_spelling spelling (head?_squeeze hspace hrest), ih, scan_spelling spelling hrest]
  | unknown c cs hseparator hopening hclosing hletter ih =>
    rw [squeeze_cons_of_not_separator (by simpa using hseparator), scan_cons,
      read_unknown _ hseparator hopening hclosing hletter, scan_cons,
      read_unknown _ hseparator hopening hclosing hletter, ih]

/-- A text has the tokens that stand between its separators, whatever these are. -/
theorem scan_spaced (cs : List Char) : scan (spaced cs) = scan cs := by
  rw [spaced, scan_rdropWhile fun _ => id, scan_dropWhile fun _ => id, scan_squeeze]

theorem isSeparator_of_isBlank {c : Char} (h : Text.isBlank c = true) : isSeparator c = true := by
  rw [isSeparator, h, Bool.true_or]

/-- The blanks at the ends of a text are no part of a token. -/
theorem scan_strip (cs : List Char) : scan (Text.strip cs) = scan cs := by
  have hblank : ∀ c, Text.isBlank c = true → isSeparator c = true := fun _ => isSeparator_of_isBlank
  change scan ((cs.dropWhile Text.isBlank).rdropWhile Text.isBlank) = scan cs
  rw [scan_rdropWhile hblank, scan_dropWhile hblank]

end Token

end LastLayer.Notation

namespace LastLayer.Algorithm

open Notation

/-- What a text is read as depends on its tokens only. -/
theorem parse_congr {text text' : String}
    (h : Token.scan text.toList = Token.scan text'.toList) : parse text = parse text' := by
  rw [parse, h, parse]

/-- Separators do nothing but separate: texts that become equal when every run of separators is
replaced by one space, and those at the ends are removed, are read as the same algorithm or have the
same fault. In particular a text may be trimmed. But separating matters: `R2` is a half turn, and in
`R 2` the number is no suffix of the letter any more. -/
theorem separators_only_separate :
    (∀ text text' : String, spaced text.toList = spaced text'.toList → parse text = parse text') ∧
    (∀ text : String, parse (Text.trim text) = parse text) ∧
    parse "R2" = .ok [⟨.R, .half⟩] ∧ parse "R 2" = .error (.invalidMove '2') := by
  refine ⟨?_, ?_, by decide +kernel, by decide +kernel⟩
  · intro text text' h
    apply parse_congr
    rw [← Token.scan_spaced, h, Token.scan_spaced]
  · intro text
    apply parse_congr
    rw [Text.trim, String.toList_ofList, Token.scan_strip]

/-- Two ways to space out a text that is read, and two of a text with a fault. -/
theorem separators_only_separate_in_texts :
    spaced ",(R,,U\x27 )2\u3000\tF ".toList = spaced "(R U\x27\n)2 F".toList ∧
    parse ",(R,,U\x27 )2\u3000\tF " = parse "(R U\x27\n)2 F" ∧
    spaced "(R) , 2".toList = spaced " (R)\u00A02,".toList ∧
    parse "(R) , 2" = parse " (R)\u00A02," := by
  have hread : spaced ",(R,,U\x27 )2\u3000\tF ".toList = spaced "(R U\x27\n)2 F".toList := by
    decide
  have hfault : spaced "(R) , 2".toList = spaced " (R)\u00A02,".toList := by decide
  exact ⟨hread, separators_only_separate.1 _ _ hread, hfault,
    separators_only_separate.1 _ _ hfault⟩

end LastLayer.Algorithm
