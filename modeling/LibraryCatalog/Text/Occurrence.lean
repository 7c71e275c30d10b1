/-!
# `LibraryCatalog.Text.Occurrence` — where a text is cut, and whether it holds another

## Contents
- **First cut.** `cut sep` divides a text at the first occurrence of a character.
- **Occurrence.** `occursIn f t` tests whether `f` stands somewhere in `t` without a gap; `occursIn_iff` ties it
  to the infix relation of lists.

Division at *every* occurrence of a character is `List.splitOn`.
-/

namespace LibraryCatalog.Text

/-! ## The first cut -/

/-- The text before the first `sep` and the text after it; `none` when `sep` does not occur. -/
def cut (sep : Char) : List Char → Option (List Char × List Char)
  | [] => none
  | c :: cs => if c = sep then some ([], cs) else (cut sep cs).map fun (l, r) => (c :: l, r)

/-- Cutting at the separator that was put between two texts gives them back. -/
theorem cut_append {sep : Char} {l : List Char} (h : sep ∉ l) (r : List Char) :
    cut sep (l ++ sep :: r) = some (l, r) := by
  induction l with
  | nil => simp [cut]
  | cons c cs ih =>
    simp only [List.mem_cons, not_or] at h
    simp [cut, Ne.symm h.1, ih h.2]

/-- The parts of a cut make up the text, and the first part is free of the separator. -/
theorem cut_eq_some_iff {sep : Char} {cs l r : List Char} :
    cut sep cs = some (l, r) ↔ cs = l ++ sep :: r ∧ sep ∉ l := by
  constructor
  · intro h
    induction cs generalizing l with
    | nil => exact absurd h (by simp [cut])
    | cons c cs ih =>
      rw [cut] at h
      by_cases hc : c = sep
      · rw [if_pos hc] at h
        obtain ⟨rfl, rfl⟩ := Prod.mk.inj (Option.some.inj h)
        exact ⟨by rw [hc, List.nil_append], List.not_mem_nil⟩
      · rw [if_neg hc, Option.map_eq_some_iff] at h
        obtain ⟨⟨l', r'⟩, hcut, hparts⟩ := h
        obtain ⟨rfl, rfl⟩ := Prod.mk.inj hparts
        obtain ⟨rfl, hmem⟩ := ih hcut
        exact ⟨rfl, by simp [hmem, Ne.symm hc]⟩
  · rintro ⟨rfl, hmem⟩
    exact cut_append hmem r

/-- There is a cut exactly when the separator occurs. -/
theorem cut_eq_none_iff {sep : Char} {cs : List Char} : cut sep cs = none ↔ sep ∉ cs := by
  induction cs with
  | nil => simp [cut]
  | cons c cs ih =>
    by_cases h : c = sep
    · simp [cut, h]
    · simp [cut, h, ih, Ne.symm h]

/-! ## Occurrence -/

/-- Whether `f` occurs in a text, its characters next to each other. -/
def occursIn (f : List Char) : List Char → Bool
  | [] => f.isEmpty
  | c :: cs => f.isPrefixOf (c :: cs) || occursIn f cs

theorem occursIn_iff {f t : List Char} : occursIn f t = true ↔ f <:+: t := by
  induction t with
  | nil => simp [occursIn]
  | cons c cs ih => simp [occursIn, ih, List.infix_cons_iff]

end LibraryCatalog.Text
