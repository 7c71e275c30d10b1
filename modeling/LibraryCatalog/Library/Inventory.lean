import LibraryCatalog.Diagnostic
import LibraryCatalog.Library.Basic
import LibraryCatalog.Search.Query

/-!
# `LibraryCatalog.Library.Inventory` — what stands where, and what a search finds

An inventory asks for the books of a room, perhaps of one row of it, perhaps of one shelf of that row. It goes
through the index to the shelves and from these to the catalog.

## Contents
- **Questions.** `InventoryQuery`, and the only way to ask wrongly, `InventoryError`.
- **Answers.** `shelvesMatching`, `entriesOn`, `inventory`.
- **Search.** `search` for an expression, `searchWith` for a compiled query.
-/

namespace LibraryCatalog

/-! ## Questions -/

/-- A room, and inside it optionally a row and a shelf. -/
structure InventoryQuery where
  room : UInt32
  row : Option UInt32
  shelf : Option UInt32
deriving Repr, DecidableEq

/-- Why an inventory is refused. -/
inductive InventoryError where
  /-- A shelf number means nothing without the row. -/
  | shelfWithoutRow
deriving Repr, DecidableEq

/-- The report of a refused inventory. -/
def InventoryError.diagnostic : InventoryError → Diagnostic
  | .shelfWithoutRow => {
      code := "shelfmark::inventory::shelf_without_row"
      message := "when a shelf number is provided, a row number must also be provided"
      help := "Shelf numbers are only unique within a row. Pass the row as well, " ++
        "e.g. \x60shelfmark inventory --room 1 --row 2 --shelf 1\x60." }

namespace Library

/-! ## Answers -/

/-- The catalog with its positions. -/
def catalog (l : Library) : List Entry := entries l.books.toList

/-- The rows of a room that a question admits. -/
def rowsMatching (l : Library) (room : RoomId) : Option UInt32 → List RowId
  | some number => l.rowIndex[(room, number)]?.toList
  | none => (l.rows.toList.filter fun r => r.room == room).map Row.id

/-- The shelves of a row that a question admits. -/
def shelvesOfRow (l : Library) (row : RowId) : Option UInt32 → List ShelfId
  | some number => l.shelfIndex[(row, number)]?.toList
  | none => (l.shelves.toList.filter fun s => s.row == row).map Shelf.id

/-- The shelves that a question admits. -/
def shelvesMatching (l : Library) (q : InventoryQuery) : List ShelfId :=
  match l.roomIndex[q.room]? with
  | none => []
  | some room => (l.rowsMatching room q.row).flatMap fun row => l.shelvesOfRow row q.shelf

/-- The entries of the catalog that stand on any of some shelves. -/
def entriesOn (l : Library) (shelves : List ShelfId) : List Entry :=
  l.catalog.filter fun e => e.book.shelf.any shelves.contains

/-- The entries that a question asks for, in catalog order. -/
def inventory (l : Library) (q : InventoryQuery) : Except InventoryError (List Entry) :=
  if q.shelf.isSome && q.row.isNone then .error .shelfWithoutRow
  else .ok (l.entriesOn (l.shelvesMatching q))

/-! ## Search -/

/-- The entries of the catalog that an expression selects. -/
def search (l : Library) (expression : String) : List Entry :=
  Search.filterBooks l.books.toList expression

/-- The entries of the catalog that a compiled query selects. -/
def searchWith (l : Library) (q : Search.Query) : List Entry := q.filter l.catalog

end Library

end LibraryCatalog
