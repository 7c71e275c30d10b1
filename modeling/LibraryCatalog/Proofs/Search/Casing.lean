import LibraryCatalog.Proofs.Search.OwnText

/-!
# `LibraryCatalog.Proofs.Search.Casing` — small letters in advance

A search puts its fragments and the texts of a book into small letters, each by itself. Doing so before, with the
whole expression or with the book, changes nothing: small letters stay as they are, and the characters at which an
expression is divided have no case. What a pattern is compiled to is a pattern again, and compiles to itself.

## Contents
- **Texts.** `smallText`, `Book.inSmallLetters`.
- **Expressions.** `splitClauses_lowercase`, `ofChars_lowercase`, `ofText_smallText`.
- **Fragments.** `fragment_settled`, `ofChars_intercalate_fragments`.
- **Search.** `selects_inSmallLetters`, and all of it in `search_casing_in_advance`.
-/

namespace LibraryCatalog

open Text

/-! ## Texts -/

/-- A text in small letters. -/
def Text.smallText (text : String) : String := String.ofList (lowercase text.toList)

/-- A book whose title, publisher and authors have been put into small letters. -/
def Book.inSmallLetters (b : Book) : Book :=
  { b with title := smallText b.title, publisher := smallText b.publisher, authors := b.authors.map smallText }

namespace Search

variable {cs f : List Char}

/-! ## Expressions -/

/-- The clauses of an expression in small letters are its clauses in small letters. -/
theorem splitClauses_lowercase (cs : List Char) : splitClauses (lowercase cs) = (splitClauses cs).map lowercase :=
  (divided_splitClauses (lowercase cs)).unique
    ((divided_splitClauses cs).lowercase caseNeutral_of_mem_separator (List.cons_ne_nil _ _))

theorem splitOn_lowercase (cs : List Char) : (lowercase cs).splitOn '*' = (cs.splitOn '*').map lowercase :=
  (divided_splitOn '*' (lowercase cs)).unique
    ((divided_splitOn '*' cs).lowercase caseNeutral_star (List.cons_ne_nil _ _))

theorem fragments_ofChars (cs : List Char) :
    (Pattern.ofChars cs).fragments = ((cs.splitOn '*').filter fun f => !f.isEmpty).map lowercase := by
  rw [Pattern.ofChars, Pattern.wildcard, filter_splitOn_strip]

/-- **A pattern in small letters** is compiled to the same fragments. -/
theorem ofChars_lowercase (cs : List Char) : Pattern.ofChars (lowercase cs) = Pattern.ofChars cs := by
  have hempty : ∀ f ∈ cs.splitOn '*', ((fun f => !f.isEmpty) ∘ lowercase) f = !f.isEmpty := by
    intro f _
    rw [Function.comp_apply, Bool.eq_iff_iff]
    simp [lowercase_eq_nil_iff]
  have hfragments : (Pattern.ofChars (lowercase cs)).fragments = (Pattern.ofChars cs).fragments := by
    -- which pieces are empty does not depend on case, and the others are in small letters once and for all
    rw [fragments_ofChars, fragments_ofChars, splitOn_lowercase, List.filter_map, List.map_map,
      List.filter_congr hempty]
    exact List.map_congr_left fun f _ => lowercase_lowercase f
  exact congrArg Pattern.mk hfragments

/-- **An expression in small letters** is compiled to the same query. -/
theorem ofText_smallText (expression : String) :
    Query.ofText (smallText expression) = Query.ofText expression := by
  rw [Query.ofText, Query.ofText, smallText, String.toList_ofList, Query.ofChars, Query.ofChars,
    splitClauses_lowercase, List.map_map]
  exact congrArg Query.mk (List.map_congr_left fun clause _ => ofChars_lowercase clause)

/-! ## Fragments -/

/-- **The fragments of a pattern** are non-empty, free of stars and in small letters. -/
theorem fragment_settled (hf : f ∈ (Pattern.ofChars cs).fragments) :
    f ≠ [] ∧ '*' ∉ f ∧ lowercase f = f := by
  refine ⟨Pattern.ne_nil_of_mem_fragments hf, ?_⟩
  rw [fragments_ofChars, List.mem_map] at hf
  obtain ⟨piece, hpiece, rfl⟩ := hf
  refine ⟨?_, lowercase_lowercase piece⟩
  have hnone : '*' ∉ piece := (divided_splitOn '*' cs).not_mem piece (List.mem_filter.mp hpiece).1
  have hneutral : CaseNeutral '*' := List.forall_mem_singleton.mp caseNeutral_star
  rwa [← List.count_eq_zero, lowercase, hneutral.count_lowerFrom, List.count_eq_zero]

/-- **Fragments with stars between them** are compiled to themselves. -/
theorem ofChars_intercalate_fragments (cs : List Char) :
    Pattern.ofChars (['*'].intercalate (Pattern.ofChars cs).fragments) = Pattern.ofChars cs := by
  generalize hp : Pattern.ofChars cs = p
  have hsettled : ∀ f ∈ p.fragments, f ≠ [] ∧ '*' ∉ f ∧ lowercase f = f := by
    intro f hf
    rw [← hp] at hf
    exact fragment_settled hf
  have hfragments : (Pattern.ofChars (['*'].intercalate p.fragments)).fragments = p.fragments := by
    rw [fragments_ofChars]
    by_cases hnone : p.fragments = []
    · rw [hnone]
      rfl
    · rw [List.splitOn_intercalate '*' (fun f hf => (hsettled f hf).2.1) hnone]
      have hall : (p.fragments.filter fun f => !f.isEmpty) = p.fragments := by
        refine List.filter_eq_self.mpr fun f hf => ?_
        simpa using (hsettled f hf).1
      rw [hall]
      exact (List.map_congr_left fun f hf => (hsettled f hf).2.2).trans (List.map_id' _)
  exact congrArg Pattern.mk hfragments

/-! ## Search -/

theorem holdsIn_smallText (p : Pattern) (text : String) : p.holdsIn (smallText text) = p.holdsIn text := by
  rw [Pattern.holdsIn, Pattern.holdsIn, smallText, String.toList_ofList, lowercase_lowercase]

/-- **A book in small letters** is selected by the same queries. -/
theorem selects_inSmallLetters (q : Query) (b : Book) : q.selects b.inSmallLetters = q.selects b := by
  have hany : ∀ p : Pattern, b.inSmallLetters.searchable.any p.holdsIn = b.searchable.any p.holdsIn := by
    intro p
    simp only [Book.searchable, Book.inSmallLetters, List.any_cons, List.any_append, List.cons_append, List.any_map,
      holdsIn_smallText, Function.comp_def]
  simp only [Query.selects, hany]

/-- **Small letters in advance change nothing**: not in an expression, not in the book, and not in the fragments, which
make up a pattern that is compiled to them. -/
theorem search_casing_in_advance :
    (∀ expression : String, Query.ofText (smallText expression) = Query.ofText expression) ∧
      (∀ pattern : String,
        (∀ f ∈ (Pattern.ofText pattern).fragments, f ≠ [] ∧ '*' ∉ f ∧ lowercase f = f) ∧
          Pattern.ofChars (['*'].intercalate (Pattern.ofText pattern).fragments) = Pattern.ofText pattern) ∧
      ∀ (q : Query) (b : Book), q.selects b.inSmallLetters = q.selects b := by
  refine ⟨ofText_smallText, ?_, selects_inSmallLetters⟩
  intro pattern
  exact ⟨fun f hf => fragment_settled hf, ofChars_intercalate_fragments pattern.toList⟩

/-- A fragment of a pattern with a final sigma, a capital that becomes two characters, and stars around. -/
theorem sample_fragment :
    "i\u0307ας".toList ∈ (Pattern.ofText "*İΑΣ*Σ").fragments ∧
      '*' ∉ "i\u0307ας".toList ∧ lowercase "i\u0307ας".toList = "i\u0307ας".toList := by
  have hmem : "i\u0307ας".toList ∈ (Pattern.ofText "*İΑΣ*Σ").fragments := by decide +kernel
  exact ⟨hmem, ((search_casing_in_advance.2.1 "*İΑΣ*Σ").1 _ hmem).2⟩

end Search

end LibraryCatalog
