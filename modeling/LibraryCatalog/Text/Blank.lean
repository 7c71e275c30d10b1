/-!
# `LibraryCatalog.Text.Blank` — white space, and trimming it away

Lines, keys, values and numbers are read without the white space around them. White space is the Unicode
property White_Space: the ASCII blanks, the next-line character and the separators of the three Z classes.

## Contents
- **Class.** `isBlank`, the 25 characters of the property.
- **Trimming.** `strip p` drops the characters of a class from both ends, `trim` does so for white space.
- **Blank lines.** `isBlankLine` holds of a text that trimming empties.
-/

namespace LibraryCatalog.Text

/-! ## The class -/

/-- White space, by the Unicode property White_Space. -/
def isBlank (c : Char) : Bool :=
  ('\t' ≤ c && c ≤ '\r') || c == ' ' || c == '\u0085' || c == '\u00a0' || c == '\u1680' ||
    ('\u2000' ≤ c && c ≤ '\u200a') || c == '\u2028' || c == '\u2029' || c == '\u202f' ||
    c == '\u205f' || c == '\u3000'

/-! ## Trimming -/

/-- Drops the characters of a class from both ends of a text. -/
def strip (p : Char → Bool) (cs : List Char) : List Char :=
  ((cs.dropWhile p).reverse.dropWhile p).reverse

/-- Drops the white space around a text. -/
def trim (cs : List Char) : List Char := strip isBlank cs

/-- A line is blank when it holds nothing but white space. -/
def isBlankLine (cs : List Char) : Bool := cs.all isBlank

/-- Stripping leaves a text alone that starts and ends outside the class. -/
theorem strip_of_ends {p : Char → Bool} {cs : List Char} (hfirst : ∀ c ∈ cs.head?, p c = false)
    (hlast : ∀ c ∈ cs.getLast?, p c = false) : strip p cs = cs := by
  have drop : ∀ ds : List Char, (∀ c ∈ ds.head?, p c = false) → ds.dropWhile p = ds := by
    intro ds hds
    cases ds with
    | nil => rfl
    | cons d ds => simp [hds d (by simp)]
  unfold strip
  rw [drop cs hfirst, drop cs.reverse (by simpa using hlast), List.reverse_reverse]

end LibraryCatalog.Text
