import LibraryCatalog.Book

/-!
# `LibraryCatalog.Entry` — books at their places in a list

Two books can agree in every respect and still be two entries of a catalog. Whatever is selected from a catalog
is therefore given as entries, a book together with its position.

## Contents
- **Type.** `Entry`.
- **Numbering.** `entries`, and what it loses and keeps: `map_book_entries`, `mem_entries`.
- **Selecting.** Entries chosen by their books, seen as positions in `map_position_filter_entries` and as books in
  `map_book_filter_entries`; their order in `pairwise_position_filter_entries`.
-/

namespace LibraryCatalog

/-- A book at a position, counted from zero. -/
structure Entry where
  position : Nat
  book : Book
deriving Repr, DecidableEq

/-- The books of a list, each with its position. -/
def entries (books : List Book) : List Entry := books.zipIdx.map fun (b, n) => ⟨n, b⟩

@[simp] theorem map_book_entries (books : List Book) : (entries books).map Entry.book = books := by
  simp [entries, Function.comp_def]

theorem map_position_entries (books : List Book) :
    (entries books).map Entry.position = List.range books.length := by
  simp [entries, Function.comp_def, List.range_eq_range']

/-- An entry of a list is a position of it and the book there. -/
theorem mem_entries {books : List Book} {e : Entry} :
    e ∈ entries books ↔ books[e.position]? = some e.book := by
  simp only [entries, List.mem_map, Prod.exists, List.mem_zipIdx_iff_getElem?]
  constructor
  · rintro ⟨b, n, h, rfl⟩
    exact h
  · intro h
    exact ⟨e.book, e.position, h, rfl⟩

/-- Selecting entries by their books selects the positions at which such books stand. -/
theorem map_position_filter_entries (p : Book → Bool) (books : List Book) :
    ((entries books).filter fun e => p e.book).map Entry.position =
      (List.range books.length).filter fun n => books[n]?.any p := by
  have hbook : ∀ e ∈ entries books, p e.book = books[e.position]?.any p := by
    intro e he
    rw [mem_entries.mp he, Option.any_some]
  rw [List.filter_congr hbook, ← map_position_entries, List.filter_map]
  rfl

/-- Entries that are selected stay in the order of their positions. -/
theorem pairwise_position_filter_entries (p : Entry → Bool) (books : List Book) :
    (((entries books).filter p).map Entry.position).Pairwise (· < ·) := by
  have hsub : (((entries books).filter p).map Entry.position).Sublist (List.range books.length) := by
    rw [← map_position_entries]
    exact List.filter_sublist.map Entry.position
  exact List.pairwise_lt_range.sublist hsub

/-- Selecting entries by their books selects these books. -/
theorem map_book_filter_entries (p : Book → Bool) (books : List Book) :
    ((entries books).filter fun e => p e.book).map Entry.book = books.filter p := by
  have hcomp := List.filter_map (f := Entry.book) (p := p) (l := entries books)
  rw [map_book_entries] at hcomp
  exact hcomp.symm

end LibraryCatalog
