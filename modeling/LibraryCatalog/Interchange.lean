import LibraryCatalog.Book
import LibraryCatalog.Configuration.Basic
import LibraryCatalog.Json.Printer
import LibraryCatalog.Json.Reader
import LibraryCatalog.Json.Struct

/-!
# `LibraryCatalog.Interchange` — the JSON forms of the catalog's data

Every type has a tree that it is written as, and a reader that takes trees of that shape. A field that is not set
is not written; it may then be missing or null.

## Contents
- **Numbers and places.** `ShelfId`, a positive number; `Location`, the string of its written form.
- **Records.** `Book`, `ShelfSource`, `Configuration`.
-/

namespace LibraryCatalog

open Text

/-! ## Numbers and places -/

namespace Identifier

variable {e : Entity}

/-- The number of an identifier. -/
def toJson (i : Identifier e) : Json := .ofInt i.val.toNat

/-- The identifier that a positive number of 32 bits gives. -/
def ofJson? (j : Json) : Option (Identifier e) := do
  ofRaw? (← uint32OfInt? (← j.integer?))

theorem ofJson?_toJson (i : Identifier e) : ofJson? i.toJson = some i := by
  simp [toJson, ofJson?, uint32OfInt?_toNat, ofRaw?_val]

end Identifier

namespace Location

/-- The written form of a location. -/
def toJson (l : Location) : Json := .ofText l.text

/-- The location that a string gives. -/
def ofJson? (j : Json) : Option Location := do ofChars? (← j.text?).toList

end Location

/-! ## Records -/

/-- A number field. -/
def int32OfJson? (j : Json) : Option Int32 := do int32OfInt? (← j.integer?)

namespace Book

/-- The fields of a book in their declared order. -/
def fieldNames : List String :=
  ["isbn", "title", "authors", "publisher", "publication_year", "number_of_pages", "shelf_id"]

/-- The members of a book; the shelf is left out if there is none. -/
def toJson (b : Book) : Json :=
  .object ([
    Json.member "isbn" (.ofText b.isbn),
    Json.member "title" (.ofText b.title),
    Json.member "authors" (.array (b.authors.map .ofText)),
    Json.member "publisher" (.ofText b.publisher),
    Json.member "publication_year" (.ofInt b.publicationYear.toInt),
    Json.member "number_of_pages" (.ofInt b.numberOfPages.toInt)] ++
    b.shelf.toList.map fun id => Json.member "shelf_id" id.toJson)

/-- The book that a record gives. Only the shelf may be missing or null. -/
def ofJson? (j : Json) : Option Book := do
  match ← j.fieldValues? fieldNames with
  | [isbn, title, authors, publisher, year, pages, shelf] =>
    return {
      isbn := ← (← isbn).text?
      title := ← (← title).text?
      authors := ← (← authors).texts?
      publisher := ← (← publisher).text?
      publicationYear := ← int32OfJson? (← year)
      numberOfPages := ← int32OfJson? (← pages)
      shelf := ← Json.optional? Identifier.ofJson? shelf }
  | _ => none

/-- Reads a book. -/
def readJson? (text : String) : Option Book := (Json.read? text).bind ofJson?

/-- A list of books, spread over lines. -/
def listText (books : List Book) : String := Json.render .pretty (.array (books.map toJson))

end Book

namespace ShelfSource

/-- The fields of a record file in their declared order. -/
def fieldNames : List String := ["location", "file"]

/-- The members of a record file. -/
def toJson (s : ShelfSource) : Json :=
  .object [Json.member "location" s.location.toJson, Json.member "file" (.ofText s.file)]

/-- The record file that a record gives. -/
def ofJson? (j : Json) : Option ShelfSource := do
  match ← j.fieldValues? fieldNames with
  | [location, file] => return ⟨← Location.ofJson? (← location), ← (← file).text?⟩
  | _ => none

end ShelfSource

namespace Configuration

/-- The fields of a configuration in their declared order. -/
def fieldNames : List String := ["log_filter", "shelves"]

/-- The members of a configuration; the filter is left out if there is none. -/
def toJson (c : Configuration) : Json :=
  .object ((c.logFilter.toList.map fun f => Json.member "log_filter" (.ofText f)) ++
    [Json.member "shelves" (.array (c.shelves.map ShelfSource.toJson))])

/-- The configuration that a record gives. Both fields may be missing. -/
def ofJson? (j : Json) : Option Configuration := do
  match ← j.fieldValues? fieldNames with
  | [filter, shelves] =>
    let filter ← Json.optional? Json.text? filter
    match shelves with
    | none => return ⟨filter, []⟩
    | some j => return ⟨filter, ← (← j.elements?).mapM ShelfSource.ofJson?⟩
  | _ => none

end Configuration

end LibraryCatalog
