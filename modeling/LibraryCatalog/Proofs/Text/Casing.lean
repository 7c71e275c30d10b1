import LibraryCatalog.Text.Lowercase

/-!
# `LibraryCatalog.Proofs.Text.Casing` — small letters on both sides of a separator

The small form of a character can depend on the whole text around it, as that of a sigma does. But nothing is seen
across a character that has no case and is not passed over, such as a blank, an ampersand or a star. So it makes no
difference whether a text is cut at such a character before or after it is put into small letters.

## Contents
- **Neutral characters.** `CaseNeutral`; a text on one side of such a character has no influence on the other side:
  `lowerFrom_append_cons`.
- **Separators.** `lowercase_append_sep`, for several such characters in a row.
-/

namespace LibraryCatalog.Text

variable {c d : Char} {cs ds sep : List Char}

/-! ## Neutral characters -/

/-- A character without case that is its own small letter and is not passed over when the neighbours of a letter are
looked at. -/
structure CaseNeutral (c : Char) : Prop where
  not_cased : isCased c = false
  not_ignorable : isCaseIgnorable c = false
  small_eq : small c = c

instance (c : Char) : Decidable (CaseNeutral c) :=
  decidable_of_iff (isCased c = false ∧ isCaseIgnorable c = false ∧ small c = c)
    ⟨fun h => ⟨h.1, h.2.1, h.2.2⟩, fun h => ⟨h.not_cased, h.not_ignorable, h.small_eq⟩⟩

/-- The two letters whose small forms are not looked up have case. -/
theorem CaseNeutral.lowerChar_eq (h : CaseNeutral c) (before : Bool) (after : List Char) :
    lowerChar before c after = [c] := by
  have hne (d : Char) (hd : isCased d = true) : c ≠ d := by
    rintro rfl
    rw [h.not_cased] at hd
    cases hd
  rw [lowerChar, if_neg (hne 'Σ' (by decide)), if_neg (hne 'İ' (by decide)), h.small_eq]

theorem CaseNeutral.endsCased_eq (h : CaseNeutral c) (before : Bool) : endsCased before c = false := by
  rw [endsCased, h.not_ignorable]
  exact h.not_cased

/-- What follows a neutral character is not looked at from before it. -/
theorem CaseNeutral.startsCased_append_cons (h : CaseNeutral c) (cs ds : List Char) :
    startsCased (cs ++ c :: ds) = startsCased cs := by
  induction cs with
  | nil =>
    rw [List.nil_append, startsCased, List.dropWhile_cons, h.not_ignorable]
    exact h.not_cased
  | cons d cs ih =>
    rw [List.cons_append, startsCased, startsCased, List.dropWhile_cons, List.dropWhile_cons]
    by_cases hd : isCaseIgnorable d = true
    · -- an ignorable character is passed over on both sides, and the neutral one ends the look ahead at the latest
      rw [if_pos hd, if_pos hd]
      exact ih
    · rw [if_neg hd, if_neg hd]

theorem CaseNeutral.lowerChar_append_cons (h : CaseNeutral c) (before : Bool) (cs ds : List Char) :
    lowerChar before d (cs ++ c :: ds) = lowerChar before d cs := by
  rw [lowerChar, lowerChar, h.startsCased_append_cons]

/-- **After a neutral character** a text is put into small letters as if it started there. -/
theorem CaseNeutral.lowerFrom_append_cons (h : CaseNeutral c) (before : Bool) (cs ds : List Char) :
    lowerFrom before (cs ++ c :: ds) = lowerFrom before cs ++ c :: lowercase ds := by
  induction cs generalizing before with
  | nil =>
    rw [List.nil_append, lowerFrom, lowerFrom, h.lowerChar_eq, h.endsCased_eq]
    rfl
  | cons d cs ih =>
    rw [List.cons_append, lowerFrom, lowerFrom, ih, h.lowerChar_append_cons, List.append_assoc]

/-! ## Separators -/

/-- Neutral characters at the front stay as they are. -/
theorem lowercase_append_of_neutral (hsep : ∀ c ∈ sep, CaseNeutral c) (ds : List Char) :
    lowercase (sep ++ ds) = sep ++ lowercase ds := by
  induction sep with
  | nil => rfl
  | cons c sep ih =>
    obtain ⟨hc, hsep⟩ := List.forall_mem_cons.mp hsep
    rw [List.cons_append, List.cons_append, ← ih hsep]
    exact hc.lowerFrom_append_cons false [] _

/-- **A separator of neutral characters** divides the small form of a text as it divides the text. -/
theorem lowercase_append_sep (hsep : ∀ c ∈ sep, CaseNeutral c) (hne : sep ≠ []) (cs ds : List Char) :
    lowercase (cs ++ sep ++ ds) = lowercase cs ++ sep ++ lowercase ds := by
  obtain ⟨c, sep, rfl⟩ := List.exists_cons_of_ne_nil hne
  obtain ⟨hc, hsep⟩ := List.forall_mem_cons.mp hsep
  rw [List.append_assoc, List.append_assoc, List.cons_append, List.cons_append, ← lowercase_append_of_neutral hsep]
  exact hc.lowerFrom_append_cons false cs _

end LibraryCatalog.Text
