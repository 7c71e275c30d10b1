import LibraryCatalog.Proofs.Search.Casing

/-!
# `LibraryCatalog.Proofs.Search.Joining` — two expressions with a separator between them

A separator begins and ends with a blank, and so two of them can overlap. When an expression ends in the first two
characters of a separator, a further separator behind it is not found where it was put: it is found two characters
earlier, and what is left of it goes to the next clause. There is no other way in which two expressions can be joined
wrongly.

## Contents
- **Ends.** `lastClause`, `EndsCleanly`.
- **Clauses.** `exists_seam`: how the clauses of two expressions are put together, in either case.
- **Fragments.** `count_fragments`: how often a neutral character stands in a compiled pattern.
- **Joining.** `clauses_join_iff`, `selects_join`, and `join_is_and` for clauses, books and lists of books.
-/

namespace LibraryCatalog.Search

open Text

/-! ## Ends -/

/-- The last clause of an expression. -/
def lastClause (expression : String) : List Char := (splitClauses expression.toList).getLastD []

/-- An expression after which a separator is found where it stands: the last clause does not end in the first two
characters of a separator. -/
def EndsCleanly (expression : String) : Prop := ¬[' ', '&'] <:+ lastClause expression

instance (expression : String) : Decidable (EndsCleanly expression) :=
  inferInstanceAs (Decidable (¬[' ', '&'] <:+ lastClause expression))

/-! ## Clauses -/

variable {last : List Char}

/-- A text without a separator and the beginning of a separator make one only if the text ends in such a beginning. -/
theorem not_infix_append (hnone : ¬[' ', '&', ' '] <:+: last) (hend : ¬[' ', '&'] <:+ last) :
    ¬[' ', '&', ' '] <:+: last ++ [' ', '&'] := by
  rintro ⟨before, after, heq⟩
  rcases List.append_eq_append_iff.mp heq with ⟨back, rfl, -⟩ | ⟨added, hlast, hadded⟩
  · exact hnone ⟨before, back, rfl⟩
  · -- how far the occurrence reaches into the two characters that were added
    replace hlast : before ++ ([' ', '&'] ++ [' ']) = last ++ added := hlast
    rw [← List.append_assoc] at hlast
    rcases added with _ | ⟨c, _ | ⟨d, added⟩⟩
    · rw [List.append_nil, List.append_assoc] at hlast
      rw [← hlast] at hnone
      exact hnone (List.suffix_append before _).isInfix
    · obtain ⟨hbefore, -⟩ := List.append_inj' hlast rfl
      exact hend ⟨before, hbefore⟩
    · simp only [List.cons_append, List.cons.injEq, List.nil_eq, List.append_eq_nil_iff] at hadded
      obtain ⟨rfl, rfl, rfl, -⟩ := hadded
      replace hlast : (before ++ [' ', '&']) ++ [' '] = last ++ ([' '] ++ ['&']) := hlast
      rw [← List.append_assoc] at hlast
      obtain ⟨-, hblank⟩ := List.append_inj' hlast rfl
      exact absurd hblank (by decide)

/-- **How clauses are put together** at a separator: those of the two texts, one after the other, unless the first text
does not end cleanly. In that case its last clause ends two characters earlier, and the rest of the separator begins the
second text. -/
theorem exists_seam (cs ds : List Char) :
    ∃ firsts last, splitClauses cs = firsts ++ [last] ∧
      (¬[' ', '&'] <:+ last →
        splitClauses (cs ++ [' ', '&', ' '] ++ ds) = firsts ++ [last] ++ splitClauses ds) ∧
      ∀ start, last = start ++ [' ', '&'] →
        splitClauses (cs ++ [' ', '&', ' '] ++ ds) = firsts ++ start :: splitClauses ('&' :: ' ' :: ds) := by
  have hdivided := divided_splitClauses cs
  obtain ⟨front, firsts, last, hcs, hpieces, hends⟩ := hdivided.exists_last
  have hnone : ¬[' ', '&', ' '] <:+: last := by
    refine hdivided.not_occurs (List.cons_ne_nil _ _) last ?_
    rw [hpieces]
    exact List.mem_append_right _ List.mem_cons_self
  refine ⟨firsts, last, hpieces, ?_, ?_⟩
  · intro hend
    have hseam : Divided [' ', '&', ' '] (last ++ [' ', '&', ' '] ++ ds) (last :: splitClauses ds) :=
      .cut_of_not_occurs (not_infix_append hnone hend) (divided_splitClauses ds)
    have hwhole := hends _ _ hseam
    rw [← List.append_assoc, ← List.append_assoc, ← hcs] at hwhole
    rw [(divided_splitClauses _).unique hwhole, List.append_assoc]
    rfl
  · rintro start rfl
    have hseam : Divided [' ', '&', ' '] (start ++ [' ', '&', ' '] ++ '&' :: ' ' :: ds)
        (start :: splitClauses ('&' :: ' ' :: ds)) :=
      .cut_of_not_occurs hnone (divided_splitClauses _)
    have hwhole := hends _ _ hseam
    -- the same characters, with the separator two places further left
    have htext : cs ++ [' ', '&', ' '] ++ ds = front ++ (start ++ [' ', '&', ' '] ++ '&' :: ' ' :: ds) := by
      rw [hcs]
      simp
    rw [htext]
    exact (divided_splitClauses _).unique hwhole

/-! ## Fragments -/

variable {d : Char}

/-- A text divided at another character keeps all of a character. -/
theorem count_flatten_splitOn {c : Char} (hne : c ≠ d) (cs : List Char) :
    (cs.splitOn c).flatten.count d = cs.count d := by
  induction cs with
  | nil => rfl
  | cons e cs ih =>
    rw [List.splitOn_cons_eq_if_modifyHead]
    by_cases he : (e == c) = true
    · rw [if_pos he, List.flatten_cons, List.nil_append, ih, beq_iff_eq.mp he, List.count_cons_of_ne hne]
    · rw [if_neg he]
      cases hsplit : cs.splitOn c with
      | nil => exact absurd hsplit (List.splitOn_ne_nil c cs)
      | cons piece pieces =>
        rw [hsplit] at ih
        rw [List.modifyHead_cons, List.flatten_cons, List.cons_append, List.count_cons, ← List.flatten_cons, ih,
          List.count_cons]

/-- **A neutral character** other than a star stands in the fragments of a pattern as often as in the pattern. -/
theorem count_fragments (h : CaseNeutral d) (hne : '*' ≠ d) (cs : List Char) :
    (Pattern.ofChars cs).fragments.flatten.count d = cs.count d := by
  rw [fragments_ofChars, ← count_flatten_splitOn hne cs]
  induction cs.splitOn '*' with
  | nil => rfl
  | cons piece pieces ih =>
    rw [List.filter_cons]
    by_cases hpiece : piece = []
    · rw [hpiece]
      exact ih
    · have hkeep : (!piece.isEmpty) = true := by simpa using hpiece
      rw [if_pos hkeep, List.map_cons, List.flatten_cons, List.flatten_cons, List.count_append, List.count_append, ih,
        lowercase, h.count_lowerFrom]

/-! ## Joining -/

variable {e₁ e₂ : String}

theorem clauses_ofText (expression : String) :
    (Query.ofText expression).clauses = (splitClauses expression.toList).map Pattern.ofChars := rfl

theorem toList_join (e₁ e₂ : String) : (e₁ ++ " & " ++ e₂).toList = e₁.toList ++ [' ', '&', ' '] ++ e₂.toList := by
  rw [String.toList_append, String.toList_append]
  rfl

/-- **Two expressions have their clauses together** exactly when the first ends cleanly. -/
theorem clauses_join_iff (e₁ e₂ : String) :
    (Query.ofText (e₁ ++ " & " ++ e₂)).clauses = (Query.ofText e₁).clauses ++ (Query.ofText e₂).clauses ↔
      EndsCleanly e₁ := by
  obtain ⟨firsts, last, hclauses, hclean, hcut⟩ := exists_seam e₁.toList e₂.toList
  have hlast : lastClause e₁ = last := by
    rw [lastClause, hclauses]
    simp
  rw [EndsCleanly, hlast, clauses_ofText, clauses_ofText, clauses_ofText, toList_join]
  constructor
  · rintro heq ⟨start, rfl⟩
    rw [hcut start rfl, hclauses] at heq
    simp only [List.map_append, List.map_cons, List.append_assoc, List.append_cancel_left_eq, List.cons_append] at heq
    -- the clause that was cut short has lost an ampersand
    have hstart := congrArg (fun p : Pattern => p.fragments.flatten.count '&') (List.cons.inj heq).1
    have hampersand : CaseNeutral '&' := by decide
    simp only [count_fragments hampersand (by decide : '*' ≠ '&'), List.count_append] at hstart
    have hone : [' ', '&'].count '&' = 1 := by decide
    omega
  · intro hend
    rw [hclean hend, hclauses, List.map_append]

/-- An expression always has a clause, and so its query asks for its clauses alone. -/
theorem selects_ofText (expression : String) (b : Book) :
    (Query.ofText expression).selects b =
      (Query.ofText expression).clauses.all fun p => b.searchable.any p.holdsIn := by
  have hne : (Query.ofText expression).clauses.isEmpty = false := by
    rw [clauses_ofText, List.isEmpty_map, List.isEmpty_eq_false_iff]
    exact (divided_splitClauses expression.toList).ne_nil
  rw [Query.selects, hne]
  rfl

/-- **Joined expressions ask for both**, if the first ends cleanly. -/
theorem selects_join (h : EndsCleanly e₁) (e₂ : String) (b : Book) :
    (Query.ofText (e₁ ++ " & " ++ e₂)).selects b = ((Query.ofText e₁).selects b && (Query.ofText e₂).selects b) := by
  rw [selects_ofText, selects_ofText, selects_ofText, (clauses_join_iff e₁ e₂).mpr h, List.all_append]

/-- **A separator between two expressions is an AND** exactly when the first of them ends cleanly: the clauses of both
are put together, a book is selected when both select it, and a list of books can be searched for one after the other. -/
theorem join_is_and :
    (∀ e₁ e₂ : String,
      (Query.ofText (e₁ ++ " & " ++ e₂)).clauses = (Query.ofText e₁).clauses ++ (Query.ofText e₂).clauses ↔
        EndsCleanly e₁) ∧
      ∀ e₁ e₂ : String, EndsCleanly e₁ →
        (∀ b, (Query.ofText (e₁ ++ " & " ++ e₂)).selects b =
          ((Query.ofText e₁).selects b && (Query.ofText e₂).selects b)) ∧
        ∀ books, filterBooks books (e₁ ++ " & " ++ e₂) = (Query.ofText e₂).filter (filterBooks books e₁) ∧
          (filterBooks books (e₁ ++ " & " ++ e₂)).map Entry.book =
            (filterBooks ((filterBooks books e₁).map Entry.book) e₂).map Entry.book := by
  refine ⟨clauses_join_iff, ?_⟩
  intro e₁ e₂ h
  refine ⟨selects_join h e₂, ?_⟩
  intro books
  have hbooks : ∀ bs e, (filterBooks bs e).map Entry.book = bs.filter (Query.ofText e).selects := fun bs e =>
    map_book_filter_entries (Query.ofText e).selects bs
  constructor
  · rw [filterBooks, filterBooks, Query.filter, Query.filter, Query.filter, List.filter_filter]
    refine List.filter_congr fun e _ => ?_
    rw [selects_join h, Bool.and_comm]
  · rw [hbooks, hbooks, hbooks, List.filter_filter]
    refine List.filter_congr fun b _ => ?_
    rw [selects_join h, Bool.and_comm]

/-- An expression that ends in a blank and an ampersand, of which the blank belongs to the separator before. -/
theorem sample_join :
    EndsCleanly "*a & &" ∧
      (Query.ofText "*a & & & B").selects { Book.blank with title := "a & b" } =
        ((Query.ofText "*a & &").selects { Book.blank with title := "a & b" } &&
          (Query.ofText "B").selects { Book.blank with title := "a & b" }) := by
  have hclean : EndsCleanly "*a & &" := by decide +kernel
  exact ⟨hclean, (join_is_and.2 "*a & &" "B" hclean).1 _⟩

end LibraryCatalog.Search
