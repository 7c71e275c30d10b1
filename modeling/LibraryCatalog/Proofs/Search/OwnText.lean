import LibraryCatalog.Library.Inventory
import LibraryCatalog.Proofs.Search.Meaning
import LibraryCatalog.Proofs.Text.SmallLetters

/-!
# `LibraryCatalog.Proofs.Search.OwnText` — a book is found by its own texts

A text of a book can be given as an expression, although it is then read as one: it is divided at separators and stars,
and every piece is put into small letters by itself. All of these characters are neutral, so that the pieces still stand
in the small letters of the whole text.

## Contents
- **Separators.** `caseNeutral_star`, `caseNeutral_of_mem_separator`.
- **Pieces.** `covers_clause`: a text covers each of the clauses into which it is divided.
- **Finding.** `finds_own_texts`.
-/

namespace LibraryCatalog

open Text

namespace Search

/-! ## Separators -/

theorem caseNeutral_star : ∀ c ∈ ['*'], CaseNeutral c :=
  List.forall_mem_singleton.mpr (by decide)

theorem caseNeutral_of_mem_separator : ∀ c ∈ " & ".toList, CaseNeutral c := by
  have hblank : CaseNeutral ' ' := by decide
  have hampersand : CaseNeutral '&' := by decide
  exact List.forall_mem_cons.mpr
    ⟨hblank, List.forall_mem_cons.mpr ⟨hampersand, List.forall_mem_singleton.mpr hblank⟩⟩

/-! ## Pieces -/

/-- **A text covers its own clauses**, whatever stars they hold. -/
theorem covers_clause {text : String} {clauses : List (List Char)}
    (h : Divided " & ".toList text.toList clauses) {clause : List Char} (hclause : clause ∈ clauses) :
    Covers text clause := by
  have hpieces := divided_splitOn '*' clause
  refine ⟨clause.splitOn '*', hpieces, fun piece hpiece _ => ?_⟩
  have hin : lowercase piece <:+: lowercase clause :=
    hpieces.lowercase_infix caseNeutral_star (List.cons_ne_nil _ _) piece hpiece
  exact hin.trans (h.lowercase_infix caseNeutral_of_mem_separator (by decide) clause hclause)

/-- A book meets each of its texts. -/
theorem meets_of_shows {b : Book} {text : String} (h : b.Shows text) : Meets text b :=
  ⟨splitClauses text.toList, divided_splitClauses text.toList, fun _ hclause =>
    ⟨text, h, covers_clause (divided_splitClauses text.toList) hclause⟩⟩

end Search

/-! ## Finding -/

/-- **A book is always found by its own texts**, whatever these hold, by a query and in the catalog of a library. -/
theorem Library.finds_own_texts :
    (∀ (b : Book) (text : String), b.Shows text → (Search.Query.ofText text).selects b = true) ∧
      ∀ (l : Library) (e : Entry) (text : String), l.books[e.position]? = some e.book → e.book.Shows text →
        e ∈ l.search text := by
  constructor
  · intro b text h
    exact Search.selects_ofText_iff.mpr (Search.meets_of_shows h)
  · intro l e text he h
    rw [search, Search.filterBooks, Search.Query.filter, List.mem_filter, mem_entries, Array.getElem?_toList]
    exact ⟨he, Search.selects_ofText_iff.mpr (Search.meets_of_shows h)⟩

/-- A book whose title is divided as an expression, at overlapping separators and at a star, and whose small form
depends on what stands around the sigmas. -/
def sampleDivided : Book := { Book.blank with title := "ΟΔΟΣ & & İ*Σ", publicationYear := -1 }

theorem sample_own_texts :
    (Search.Query.ofText "ΟΔΟΣ & & İ*Σ").selects sampleDivided = true ∧
      ⟨0, sampleDivided⟩ ∈ Library.search { Library.empty with books := #[sampleDivided] } "-1" := by
  have hyear : sampleDivided.Shows "-1" := .inr (.inr (.inr (by decide +kernel)))
  exact ⟨Library.finds_own_texts.1 sampleDivided _ (.inl rfl), Library.finds_own_texts.2 _ ⟨0, _⟩ "-1" rfl hyear⟩

end LibraryCatalog
