import LibraryCatalog.Text.Blank

/-!
# `LibraryCatalog.Proofs.Text.Division` — what it is to divide a text at every separator

Occurrences of a separator of several characters can overlap, so that it matters where a division starts. It goes
from the left, and goes on after the separator that it has found.

## Contents
- **Relation.** `Divided`; a text is divided in one way only (`Divided.unique`), its pieces stand in it
  (`Divided.infix_of_mem`), and none of them can be divided further (`Divided.not_occurs`).
- **Seams.** Where a piece ends (`Divided.cut_of_not_occurs`) and what follows the last separator
  (`Divided.exists_last`), for texts that are put together.
- **One character.** `divided_splitOn`, and the pieces that are left when the separators around a text are dropped:
  `filter_splitOn_strip`.
- **Fronts.** `takeWhile_append_of_head` and `dropWhile_append_of_head`, where a text ends before a character that
  cannot belong to it.
-/

namespace LibraryCatalog.Text

variable {sep cs : List Char} {pieces pieces' : List (List Char)}

/-! ## Relation -/

/-- The pieces of a text between the occurrences of a separator, each found as far left as possible after the one
before it. -/
inductive Divided (sep : List Char) : List Char → List (List Char) → Prop where
  /-- A text in which the separator does not occur is one piece. -/
  | last {cs : List Char} : ¬sep <:+: cs → Divided sep cs [cs]
  /-- The first piece ends at the leftmost occurrence. -/
  | cut {piece rest : List Char} {pieces : List (List Char)} :
      (∀ before after, piece ++ sep ++ rest = before ++ sep ++ after → piece.length ≤ before.length) →
      Divided sep rest pieces → Divided sep (piece ++ sep ++ rest) (piece :: pieces)

/-- **A text is divided in one way only.** -/
theorem Divided.unique (h : Divided sep cs pieces) (h' : Divided sep cs pieces') : pieces = pieces' := by
  induction h generalizing pieces' with
  | last hnone =>
    cases h' with
    | last => rfl
    | cut => exact absurd ⟨_, _, rfl⟩ hnone
  | @cut piece rest pieces hfirst _ ih =>
    generalize htext : piece ++ sep ++ rest = text at h'
    cases h' with
    | last hnone => exact absurd ⟨_, _, htext⟩ hnone
    | @cut piece' rest' pieces' hfirst' hrest' =>
      -- neither of the two occurrences stands to the left of the other
      have hlen : piece.length = piece'.length :=
        Nat.le_antisymm (hfirst _ _ htext) (hfirst' _ _ htext.symm)
      rw [List.append_assoc, List.append_assoc] at htext
      obtain ⟨rfl, htail⟩ := List.append_inj htext hlen
      obtain rfl := List.append_cancel_left htail
      rw [ih hrest']

/-- What is asked of some division of a text is asked of the only one. -/
theorem Divided.exists_and_iff (h : Divided sep cs pieces) {P : List (List Char) → Prop} :
    (∃ ps, Divided sep cs ps ∧ P ps) ↔ P pieces := by
  constructor
  · rintro ⟨ps, hps, hP⟩
    rwa [h.unique hps]
  · intro hP
    exact ⟨pieces, h, hP⟩

/-- Every text has a piece. -/
theorem Divided.ne_nil (h : Divided sep cs pieces) : pieces ≠ [] := by
  cases h <;> exact List.cons_ne_nil _ _

/-- A separator at the front ends an empty piece. -/
theorem Divided.sep_append (h : Divided sep cs pieces) : Divided sep (sep ++ cs) ([] :: pieces) := by
  show Divided sep ([] ++ sep ++ cs) ([] :: pieces)
  exact .cut (fun _ _ _ => Nat.zero_le _) h

/-- A character at which no separator starts belongs to the first piece. -/
theorem Divided.cons {c : Char} (h : Divided sep cs pieces) (hc : ¬sep <+: c :: cs) :
    Divided sep (c :: cs) (pieces.modifyHead (c :: ·)) := by
  cases h with
  | last hnone =>
    refine .last ?_
    rw [List.infix_cons_iff]
    exact not_or.mpr ⟨hc, hnone⟩
  | @cut piece rest pieces hfirst hrest =>
    rw [List.modifyHead_cons]
    show Divided sep ((c :: piece) ++ sep ++ rest) ((c :: piece) :: pieces)
    refine .cut ?_ hrest
    intro before after heq
    cases before with
    | nil => exact absurd ⟨after, heq.symm⟩ hc
    | cons d before =>
      rw [List.length_cons, List.length_cons, Nat.succ_le_succ_iff]
      exact hfirst before after (List.cons.inj heq).2

theorem Divided.nil (hsep : sep ≠ []) : Divided sep [] [[]] := by
  refine .last ?_
  rwa [List.infix_nil]

/-- **Every piece stands in the text.** -/
theorem Divided.infix_of_mem (h : Divided sep cs pieces) : ∀ piece ∈ pieces, piece <:+: cs := by
  induction h with
  | last _ => exact List.forall_mem_singleton.mpr List.infix_rfl
  | @cut first rest pieces _ _ ih =>
    have hfirst : first <:+: first ++ sep ++ rest := by
      rw [List.append_assoc]
      exact (List.prefix_append _ _).isInfix
    exact List.forall_mem_cons.mpr ⟨hfirst, fun piece hpiece =>
      (ih piece hpiece).trans (List.suffix_append (first ++ sep) rest).isInfix⟩

/-- **The separator occurs in no piece.** -/
theorem Divided.not_occurs (h : Divided sep cs pieces) (hsep : sep ≠ []) : ∀ piece ∈ pieces, ¬sep <:+: piece := by
  induction h with
  | last hnone => exact List.forall_mem_singleton.mpr hnone
  | @cut piece rest pieces hfirst _ ih =>
    refine List.forall_mem_cons.mpr ⟨?_, ih⟩
    rintro ⟨before, after, rfl⟩
    -- an occurrence inside the piece would be further left than the one that ends it
    have hlen := hfirst before (after ++ sep ++ rest) (by simp only [List.append_assoc])
    have hpos := List.length_pos_iff.mpr hsep
    simp only [List.length_append] at hlen
    omega

/-! ## Seams -/

section

variable {piece rest before after : List Char}

/-- An occurrence that starts inside a piece ends inside the piece and what follows it, but for the last character of
the separator. -/
theorem prefix_of_starts_inside (heq : piece ++ sep ++ rest = before ++ sep ++ after)
    (hlt : before.length < piece.length) : before ++ sep <+: piece ++ sep.dropLast := by
  have hwhole : piece ++ sep.dropLast <+: piece ++ sep ++ rest := by
    rw [List.append_assoc, List.prefix_append_right_inj]
    exact (List.dropLast_prefix sep).trans (List.prefix_append sep rest)
  refine List.prefix_of_prefix_length_le ⟨after, heq.symm⟩ hwhole ?_
  rw [List.length_append, List.length_append, List.length_dropLast]
  omega

/-- **A separator ends a piece** if there is none in the piece and the separator without its last character. -/
theorem Divided.cut_of_not_occurs (hnone : ¬sep <:+: piece ++ sep.dropLast) (h : Divided sep rest pieces) :
    Divided sep (piece ++ sep ++ rest) (piece :: pieces) := by
  refine .cut ?_ h
  intro before after heq
  rcases Nat.lt_or_ge before.length piece.length with hlt | hge
  · have hinside := prefix_of_starts_inside heq hlt
    exact absurd ((List.suffix_append before sep).isInfix.trans hinside.isInfix) hnone
  · exact hge

/-- **What follows the last separator** is divided as if it stood alone. -/
theorem Divided.exists_last (h : Divided sep cs pieces) :
    ∃ front firsts last, cs = front ++ last ∧ pieces = firsts ++ [last] ∧
      ∀ ds ends, Divided sep ds ends → Divided sep (front ++ ds) (firsts ++ ends) := by
  induction h with
  | @last cs _ => exact ⟨[], [], cs, rfl, rfl, fun _ _ h => h⟩
  | @cut piece rest pieces hfirst _ ih =>
    obtain ⟨front, firsts, last, rfl, rfl, hends⟩ := ih
    refine ⟨piece ++ sep ++ front, piece :: firsts, last, by rw [List.append_assoc (piece ++ sep)], rfl, ?_⟩
    intro ds ends h
    rw [List.append_assoc (piece ++ sep)]
    refine .cut ?_ (hends ds ends h)
    intro before after heq
    rcases Nat.lt_or_ge before.length piece.length with hlt | hge
    · -- the occurrence ends before the rest begins, and so it is there whatever the rest is
      obtain ⟨tail, htail⟩ := (prefix_of_starts_inside heq hlt).trans
        ((List.prefix_append_right_inj piece).mpr (List.dropLast_prefix sep))
      refine hfirst before (tail ++ (front ++ last)) ?_
      rw [← htail, List.append_assoc (before ++ sep)]
    · exact hge

end

/-! ## One character -/

/-- **Division at one character** is that of lists. -/
theorem divided_splitOn (c : Char) (cs : List Char) : Divided [c] cs (cs.splitOn c) := by
  induction cs with
  | nil => exact .nil (List.cons_ne_nil c [])
  | cons d cs ih =>
    rw [List.splitOn_cons_eq_if_modifyHead]
    by_cases hd : (d == c) = true
    · rw [if_pos hd, beq_iff_eq.mp hd]
      exact ih.sep_append
    · rw [if_neg hd]
      refine ih.cons fun hpre => hd ?_
      rw [List.cons_prefix_cons] at hpre
      exact beq_iff_eq.mpr hpre.1.symm

theorem Divided.not_mem {c : Char} (h : Divided [c] cs pieces) : ∀ piece ∈ pieces, c ∉ piece := by
  intro piece hpiece hc
  obtain ⟨before, after, rfl⟩ := List.append_of_mem hc
  exact h.not_occurs (List.cons_ne_nil c []) _ hpiece ⟨before, after, by rw [List.append_assoc]; rfl⟩

/-- Separators at the front divide off nothing but empty pieces. -/
theorem filter_splitOn_dropWhile (c : Char) (cs : List Char) :
    ((cs.dropWhile (· == c)).splitOn c).filter (fun piece => !piece.isEmpty) =
      (cs.splitOn c).filter fun piece => !piece.isEmpty := by
  induction cs with
  | nil => rfl
  | cons d cs ih =>
    rw [List.dropWhile_cons]
    by_cases hd : (d == c) = true
    · rw [if_pos hd, ih, List.splitOn_cons_eq_if_modifyHead, if_pos hd, List.filter_cons_of_neg (by simp)]
    · rw [if_neg hd]

/-- A text of separators is divided into nothing but empty pieces. -/
theorem filter_splitOn_eq_nil {c : Char} {ds : List Char} (hds : ∀ d ∈ ds, d = c) :
    (ds.splitOn c).filter (fun piece => !piece.isEmpty) = [] := by
  induction ds with
  | nil => rfl
  | cons d ds ih =>
    rw [List.forall_mem_cons] at hds
    rw [List.splitOn_cons_eq_if_modifyHead, if_pos (beq_iff_eq.mpr hds.1), List.filter_cons_of_neg (by simp)]
    exact ih hds.2

/-- Separators at the end divide off nothing but empty pieces. -/
theorem filter_splitOn_append {c : Char} {ds : List Char} (cs : List Char) (hds : ∀ d ∈ ds, d = c) :
    ((cs ++ ds).splitOn c).filter (fun piece => !piece.isEmpty) =
      (cs.splitOn c).filter fun piece => !piece.isEmpty := by
  cases ds with
  | nil => rw [List.append_nil]
  | cons d ds =>
    rw [List.forall_mem_cons] at hds
    rw [hds.1, List.splitOn_append_cons_self, List.filter_append, filter_splitOn_eq_nil hds.2, List.append_nil]

/-- **The separators around a text** divide off nothing but empty pieces. -/
theorem filter_splitOn_strip (c : Char) (cs : List Char) :
    ((strip (· == c) cs).splitOn c).filter (fun piece => !piece.isEmpty) =
      (cs.splitOn c).filter fun piece => !piece.isEmpty := by
  rw [← filter_splitOn_dropWhile c cs, strip]
  generalize cs.dropWhile (· == c) = ds
  have hends : ∀ d ∈ (ds.reverse.takeWhile (· == c)).reverse, d = c := by
    intro d hd
    exact beq_iff_eq.mp (List.all_eq_true.mp List.all_takeWhile d (List.mem_reverse.mp hd))
  -- what is dropped at the end is what the reversed text starts with
  have hsplit : (ds.reverse.dropWhile (· == c)).reverse ++ (ds.reverse.takeWhile (· == c)).reverse = ds := by
    rw [← List.reverse_append, List.takeWhile_append_dropWhile, List.reverse_reverse]
  rw [← filter_splitOn_append _ hends, hsplit]

/-! ## Fronts -/

section

variable {p : Char → Bool} {rest : List Char}

theorem takeWhile_append_of_head (hcs : ∀ c ∈ cs, p c = true) (hrest : ∀ c ∈ rest.head?, p c = false) :
    (cs ++ rest).takeWhile p = cs := by
  rw [List.takeWhile_append_of_pos hcs]
  cases rest with
  | nil => exact List.append_nil cs
  | cons c rest => rw [List.takeWhile_cons, hrest c rfl, if_neg Bool.false_ne_true, List.append_nil]

theorem dropWhile_append_of_head (hcs : ∀ c ∈ cs, p c = true) (hrest : ∀ c ∈ rest.head?, p c = false) :
    (cs ++ rest).dropWhile p = rest := by
  rw [List.dropWhile_append_of_pos hcs]
  cases rest with
  | nil => rfl
  | cons c rest => rw [List.dropWhile_cons, hrest c rfl, if_neg Bool.false_ne_true]

end

end LibraryCatalog.Text
