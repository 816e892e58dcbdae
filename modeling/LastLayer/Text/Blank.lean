/-!
# Blank characters and trimming

The blank characters are those with the Unicode property White_Space. Trimming a text removes the
blanks at both of its ends; the main statements say that nothing blank is left at either end
(`Text.not_isBlank_of_head?_strip`, `Text.not_isBlank_of_getLast?_strip`).
-/

namespace LastLayer.Text

/-- Whether a character has the Unicode property White_Space. -/
def isBlank (c : Char) : Bool :=
  let code := c.toNat
  (0x9 ≤ code && code ≤ 0xD) || code == 0x20 || code == 0x85 || code == 0xA0 || code == 0x1680 ||
    (0x2000 ≤ code && code ≤ 0x200A) || code == 0x2028 || code == 0x2029 || code == 0x202F ||
    code == 0x205F || code == 0x3000

/-- A sequence of characters without the blanks at its two ends. -/
def strip (cs : List Char) : List Char :=
  ((cs.dropWhile isBlank).reverse.dropWhile isBlank).reverse

/-- A text without the blanks at its two ends. -/
def trim (text : String) : String :=
  String.ofList (strip text.toList)

/-- The text without the blanks at its two ends, unless nothing is left of it. -/
def nonblank? (text : String) : Option String :=
  let trimmed := trim text
  if trimmed.isEmpty then none else some trimmed

/-- A blank is a control character or the space, or it is outside ASCII. -/
theorem toNat_of_isBlank {c : Char} (h : isBlank c = true) : c.toNat ≤ 0x20 ∨ 0x7F < c.toNat := by
  simp only [isBlank, Bool.or_eq_true, Bool.and_eq_true, decide_eq_true_eq, beq_iff_eq] at h
  omega

/-- A stripped sequence does not end with a blank. -/
theorem not_isBlank_of_getLast?_strip {cs : List Char} {c : Char}
    (h : (strip cs).getLast? = some c) : isBlank c = false := by
  have hhead := List.head?_dropWhile_not isBlank (cs.dropWhile isBlank).reverse
  simp only [strip, List.getLast?_reverse] at h
  rw [h] at hhead
  simpa using hhead

/-- A stripped sequence does not start with a blank. -/
theorem not_isBlank_of_head?_strip {cs : List Char} {c : Char}
    (h : (strip cs).head? = some c) : isBlank c = false := by
  have hsuffix := List.dropWhile_suffix isBlank (l := (cs.dropWhile isBlank).reverse)
  have hkept : strip cs <+: cs.dropWhile isBlank := by
    simpa [strip] using List.reverse_prefix.2 hsuffix
  obtain ⟨rest, hrest⟩ := hkept
  have hstart := List.head?_dropWhile_not isBlank cs
  rw [← hrest, List.head?_append, h] at hstart
  simpa using hstart

end LastLayer.Text
