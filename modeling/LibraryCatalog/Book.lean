import LibraryCatalog.Identifier
import LibraryCatalog.Record.Block

/-!
# `LibraryCatalog.Book` — books and the format they are read from

## Contents
- **Type.** `Book`, and `Book.searchable`, the texts that a search looks at.
- **Format.** `Book.fields`, `Book.format`, `Book.read`.
-/

namespace LibraryCatalog

/-- A book of the catalog. -/
structure Book where
  isbn : String
  title : String
  /-- The authors in the order of their lines. -/
  authors : List String
  publisher : String
  publicationYear : Int32
  numberOfPages : Int32
  /-- The shelf that a library has placed the book on. -/
  shelf : Option ShelfId
deriving Repr, DecidableEq

namespace Book

/-- A book about which nothing is known. -/
def blank : Book := ⟨"", "", [], "", 0, 0, none⟩

/-- The texts that a search looks at: title, publisher, every author, and the year in base ten. -/
def searchable (b : Book) : List String :=
  b.title :: b.publisher :: b.authors ++ [Text.intText b.publicationYear.toInt]

/-! ## Format -/

/-- The keys of a book. Its shelf has none: only a library assigns one. -/
def fields : List (Record.Field Book) := [
  ⟨"ISBN", none, .text fun s b => { b with isbn := s }⟩,
  ⟨"Title", none, .text fun s b => { b with title := s }⟩,
  ⟨"Authors", some "Author", .list fun s b => { b with authors := b.authors ++ [s] }⟩,
  ⟨"Publisher", none, .text fun s b => { b with publisher := s }⟩,
  ⟨"PublicationYear", some "Published", .integer fun n b => { b with publicationYear := n }⟩,
  ⟨"NumberOfPages", none, .integer fun n b => { b with numberOfPages := n }⟩]

/-- A book starts with a line that begins with `Book`. -/
def format : Record.Format Book := ⟨"Book", fields, blank⟩

/-- The books of a text. -/
def read (text : String) : Except Record.FormatError (List Book) := format.read text

end Book

end LibraryCatalog
