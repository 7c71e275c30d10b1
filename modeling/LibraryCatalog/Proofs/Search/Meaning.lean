import LibraryCatalog.Proofs.Text.Division
import LibraryCatalog.Search.Query

/-!
# `LibraryCatalog.Proofs.Search.Meaning` — what a search finds

A search compiles its expression and puts every text into small letters once. What it finds can be said without
any compiling: of every clause, some one text of the book contains all the pieces between the stars.

## Contents
- **Meaning.** `Covers` for a text and a clause, `Meets` for a book and an expression.
- **Clauses.** `divided_splitClauses`.
- **Matching.** `holdsIn_ofChars_iff`, `selects_ofText_iff`, and clauses of stars: `fragments_replicate`.
- **Finding.** `filterBooks_finds_meeting`.
-/

namespace LibraryCatalog

open Text

/-- The texts of a book in which a search looks. -/
def Book.Shows (b : Book) (text : String) : Prop :=
  text = b.title ∨ text = b.publisher ∨ text ∈ b.authors ∨ text = intText b.publicationYear.toInt

theorem Book.mem_searchable_iff {b : Book} {text : String} : text ∈ b.searchable ↔ b.Shows text := by
  simp only [searchable, Shows, List.mem_cons, List.cons_append, List.mem_append, List.not_mem_nil, or_false]

namespace Search

/-! ## Meaning -/

/-- A text covers a clause: every non-empty piece between the stars of the clause stands somewhere in the text,
when both are in small letters. -/
def Covers (text : String) (clause : List Char) : Prop :=
  ∃ pieces, Divided ['*'] clause pieces ∧
    ∀ piece ∈ pieces, piece ≠ [] → lowercase piece <:+: lowercase text.toList

/-- A book meets an expression: every clause is covered by some one of its texts. -/
def Meets (expression : String) (b : Book) : Prop :=
  ∃ clauses, Divided " & ".toList expression.toList clauses ∧
    ∀ clause ∈ clauses, ∃ text, b.Shows text ∧ Covers text clause

/-! ## Clauses -/

/-- **An expression is divided into its clauses** at every ` & `, from the left. -/
theorem divided_splitClauses (cs : List Char) : Divided [' ', '&', ' '] cs (splitClauses cs) := by
  fun_induction splitClauses cs with
  | case1 cs ih => exact ih.sep_append
  | case2 c cs hsep ih =>
    refine ih.cons ?_
    rintro ⟨rest, hrest⟩
    obtain ⟨rfl, rfl⟩ := List.cons.inj hrest
    exact hsep rest rfl rfl
  | case3 => exact .nil (List.cons_ne_nil _ _)

/-! ## Matching -/

/-- **A pattern holds in the texts that cover it.** -/
theorem holdsIn_ofChars_iff {clause : List Char} {text : String} :
    (Pattern.ofChars clause).holdsIn text = true ↔ Covers text clause := by
  rw [Covers, (divided_splitOn '*' clause).exists_and_iff]
  simp only [Pattern.holdsIn, Pattern.ofChars, Pattern.wildcard, filter_splitOn_strip, List.all_eq_true,
    List.forall_mem_map, List.mem_filter, occursIn_iff, and_imp, Bool.not_eq_true', List.isEmpty_eq_false_iff]

/-- **A compiled expression selects the books that meet it.** -/
theorem selects_ofText_iff {expression : String} {b : Book} :
    (Query.ofText expression).selects b = true ↔ Meets expression b := by
  have hdivided : Divided " & ".toList expression.toList (splitClauses expression.toList) :=
    divided_splitClauses expression.toList
  rw [Meets, hdivided.exists_and_iff]
  simp only [Query.selects, Query.ofText, Query.ofChars, List.isEmpty_map, Bool.and_eq_true, Bool.not_eq_true',
    List.isEmpty_eq_false_iff, List.all_eq_true, List.forall_mem_map, List.any_eq_true, Book.mem_searchable_iff,
    holdsIn_ofChars_iff]
  exact and_iff_right hdivided.ne_nil

/-- A clause of stars asks for nothing. -/
theorem fragments_replicate (n : Nat) : (Pattern.ofChars (List.replicate n '*')).fragments = [] := by
  have hstars : ∀ c ∈ List.replicate n '*', c = '*' := fun c hc => List.eq_of_mem_replicate hc
  simp only [Pattern.ofChars, Pattern.wildcard, filter_splitOn_strip, filter_splitOn_eq_nil hstars, List.map_nil]

/-- A pattern without fragments holds in one of the texts of any book. -/
theorem any_holdsIn_of_fragments {p : Pattern} (h : p.fragments = []) (b : Book) :
    b.searchable.any p.holdsIn = true := by
  rw [List.any_eq_true]
  refine ⟨b.title, Book.mem_searchable_iff.mpr (.inl rfl), ?_⟩
  rw [Pattern.holdsIn, h]
  rfl

/-! ## Finding -/

/-- **A search finds exactly the entries whose books meet the expression**, in ascending order. Without any clause
nothing is found; an empty expression and a clause of stars exclude no book. -/
theorem filterBooks_finds_meeting (books : List Book) (expression : String) :
    ((filterBooks books expression).map Entry.position).Pairwise (· < ·) ∧
      (∀ e, e ∈ filterBooks books expression ↔ books[e.position]? = some e.book ∧ Meets expression e.book) ∧
      (∀ es, (Query.mk []).filter es = []) ∧
      filterBooks books "" = entries books ∧
      ∀ before after n es, (Query.mk (before ++ Pattern.ofChars (List.replicate n '*') :: after)).filter es =
        es.filter fun e => (before ++ after).all fun p => e.book.searchable.any p.holdsIn := by
  refine ⟨pairwise_position_filter_entries _ books, ?_, ?_, ?_, ?_⟩
  · intro e
    rw [filterBooks, Query.filter, List.mem_filter, mem_entries, selects_ofText_iff]
  · intro es
    exact List.filter_eq_nil_iff.mpr fun _ _ => Bool.false_ne_true
  · rw [filterBooks, Query.filter, List.filter_eq_self]
    intro e _
    have hempty : (Pattern.ofChars []).fragments = [] := fragments_replicate 0
    show (!false && ([Pattern.ofChars []].all fun p => e.book.searchable.any p.holdsIn)) = true
    rw [List.all_cons, any_holdsIn_of_fragments hempty, List.all_nil]
    rfl
  · intro before after n es
    refine List.filter_congr fun e _ => ?_
    have hany := any_holdsIn_of_fragments (fragments_replicate n) e.book
    rw [Query.selects, List.all_append, List.all_cons, hany, Bool.true_and, ← List.all_append]
    cases before <;> rfl

end Search

end LibraryCatalog
