import LibraryCatalog.Entry
import LibraryCatalog.Search.Pattern

/-!
# `LibraryCatalog.Search.Query` — search expressions over books

An expression is a list of clauses with ` & ` between them, each a pattern. A book matches when every clause
holds in one of its searchable texts; different clauses may hold in different texts.

## Contents
- **Clauses.** `splitClauses` divides an expression, from the left and without overlap.
- **Queries.** `Query`, `Query.ofText`, `Query.selects`, `Query.filter`, and `filterBooks` for both at once.
-/

namespace LibraryCatalog.Search

/-! ## Clauses -/

/-- Divides an expression at each ` & `. The blanks of a separator belong to it alone. -/
def splitClauses : List Char → List (List Char)
  | ' ' :: '&' :: ' ' :: cs => [] :: splitClauses cs
  | c :: cs => (splitClauses cs).modifyHead (c :: ·)
  | [] => [[]]

/-! ## Queries -/

/-- A compiled expression. -/
structure Query where
  clauses : List Pattern
deriving Repr, DecidableEq

namespace Query

/-- Compiles an expression. Every text is one. -/
def ofChars (cs : List Char) : Query := ⟨(splitClauses cs).map Pattern.ofChars⟩

/-- Compiles an expression. -/
def ofText (expression : String) : Query := ofChars expression.toList

/-- Whether a query selects a book. A query without clauses selects none. -/
def selects (q : Query) (b : Book) : Bool :=
  !q.clauses.isEmpty && q.clauses.all fun p => b.searchable.any p.holdsIn

/-- The entries that a query selects, in their order. -/
def filter (q : Query) (es : List Entry) : List Entry := es.filter fun e => q.selects e.book

end Query

/-- The entries of a list of books that an expression selects. -/
def filterBooks (books : List Book) (expression : String) : List Entry :=
  (Query.ofText expression).filter (entries books)

end LibraryCatalog.Search
