import LibraryCatalog.Text.CaseTable

/-!
# `LibraryCatalog.Text.Lowercase` — texts in small letters

Search ignores case by putting both sides into small letters. Every character is mapped on its own, with two
exceptions that Unicode makes: the dotted capital `İ` becomes two characters, and a capital sigma becomes the
final form `ς` at the end of a word.

## Contents
- **Characters.** `small`, `isCased`, `isCaseIgnorable`.
- **Texts.** `lowercase`, and `startsCased`, which looks at what follows a sigma.
-/

namespace LibraryCatalog.Text

/-! ## Characters -/

/-- The small letter of a capital; any other character stays as it is. -/
def small (c : Char) : Char := Char.ofNat (smallCode c.toNat capitalRuns)

/-- Whether a character is a letter with case. -/
def isCased (c : Char) : Bool := inRanges c.toNat casedRanges

/-- Whether a character is passed over when the neighbours of a letter are looked at. -/
def isCaseIgnorable (c : Char) : Bool := inRanges c.toNat caseIgnorableRanges

/-! ## Texts -/

/-- Whether the first character that is not passed over has case. -/
def startsCased (cs : List Char) : Bool :=
  match cs.dropWhile isCaseIgnorable with
  | [] => false
  | c :: _ => isCased c

/-- Whether the last character that is not passed over has case, once `c` follows a text for which `before`
    answers that. -/
def endsCased (before : Bool) (c : Char) : Bool :=
  if isCaseIgnorable c then before else isCased c

/-- The small form of one character between what stands before it and after it. A sigma is final when a cased
    letter stands before it and none after it. -/
def lowerChar (before : Bool) (c : Char) (after : List Char) : List Char :=
  if c = 'Σ' then [if before && !startsCased after then 'ς' else 'σ']
  else if c = 'İ' then ['i', '\u0307']
  else [small c]

/-- Lower-cases the rest of a text. -/
def lowerFrom (before : Bool) : List Char → List Char
  | [] => []
  | c :: cs => lowerChar before c cs ++ lowerFrom (endsCased before c) cs

/-- A text in small letters. -/
def lowercase (cs : List Char) : List Char := lowerFrom false cs

@[simp] theorem lowercase_nil : lowercase [] = [] := rfl

/-- No character is lost: only the empty text has an empty small form. -/
theorem lowercase_eq_nil_iff {cs : List Char} : lowercase cs = [] ↔ cs = [] := by
  cases cs with
  | nil => exact iff_of_true lowercase_nil rfl
  | cons c cs =>
    simp only [lowercase, lowerFrom, List.append_eq_nil_iff, reduceCtorEq, iff_false, not_and]
    intro h
    unfold lowerChar at h
    repeat' split at h
    all_goals simp at h

end LibraryCatalog.Text
