import Std.Data.HashMap
import LibraryCatalog.Book
import LibraryCatalog.Location

/-!
# `LibraryCatalog.Library.Basic` — rooms, rows, shelves and the books on them

A library allocates rooms, rows and shelves when they are first used, and keeps the placed books in one catalog,
in the order in which they came. The `n`-th room, row or shelf has the identifier `n`. An index finds each by the
identity of what holds it and its number, so that one location is always one shelf.

## Contents
- **Types.** `Room`, `Row`, `Shelf`, `Library`, `Library.Counts`.
- **Allocation.** `ensureRoom`, `ensureRow`, `ensureShelf`, and all three in `resolveShelf`.
- **Placing.** `place` one book, `placeAll` of a list, `ingest` a text of books.
- **Looking up.** `locationOf`, `book?`, `findIsbn`, `counts`.
-/

namespace LibraryCatalog

/-! ## Types -/

/-- A room and its number. -/
structure Room where
  id : RoomId
  number : UInt32
deriving Repr, DecidableEq

/-- A row, its number and the room that holds it. -/
structure Row where
  id : RowId
  number : UInt32
  room : RoomId
deriving Repr, DecidableEq

/-- A shelf, its number and the row that holds it. -/
structure Shelf where
  id : ShelfId
  number : UInt32
  row : RowId
deriving Repr, DecidableEq

/-- The catalog and the places that it knows, in the order of their creation. -/
structure Library where
  rooms : Array Room
  rows : Array Row
  shelves : Array Shelf
  books : Array Book
  roomIndex : Std.HashMap UInt32 RoomId
  rowIndex : Std.HashMap (RoomId × UInt32) RowId
  shelfIndex : Std.HashMap (RowId × UInt32) ShelfId

namespace Library

/-- A library without places and books. -/
def empty : Library := ⟨#[], #[], #[], #[], ∅, ∅, ∅⟩

/-! ## Allocation -/

/-- The room of a number, created if there is none yet. -/
def ensureRoom (l : Library) (number : UInt32) : RoomId × Library :=
  match l.roomIndex[number]? with
  | some id => (id, l)
  | none =>
    let id := .ofPosition l.rooms.size
    (id, { l with
      rooms := l.rooms.push ⟨id, number⟩
      roomIndex := l.roomIndex.insert number id })

/-- The row of a number in a room, created if there is none yet. -/
def ensureRow (l : Library) (room : RoomId) (number : UInt32) : RowId × Library :=
  match l.rowIndex[(room, number)]? with
  | some id => (id, l)
  | none =>
    let id := .ofPosition l.rows.size
    (id, { l with
      rows := l.rows.push ⟨id, number, room⟩
      rowIndex := l.rowIndex.insert (room, number) id })

/-- The shelf of a number in a row, created if there is none yet. -/
def ensureShelf (l : Library) (row : RowId) (number : UInt32) : ShelfId × Library :=
  match l.shelfIndex[(row, number)]? with
  | some id => (id, l)
  | none =>
    let id := .ofPosition l.shelves.size
    (id, { l with
      shelves := l.shelves.push ⟨id, number, row⟩
      shelfIndex := l.shelfIndex.insert (row, number) id })

/-- The shelf at a location, created with its room and row as far as they are missing. -/
def resolveShelf (l : Library) (loc : Location) : ShelfId × Library :=
  let (room, l) := l.ensureRoom loc.room
  let (row, l) := l.ensureRow room loc.row
  l.ensureShelf row loc.shelf

/-! ## Placing -/

/-- Puts a book on the shelf at a location and appends it to the catalog. Gives the position of the book. -/
def place (l : Library) (b : Book) (loc : Location) : Nat × Library :=
  let (shelf, l) := l.resolveShelf loc
  (l.books.size, { l with books := l.books.push { b with shelf := some shelf } })

/-- Places the books of a list one after the other. -/
def placeAll (l : Library) (loc : Location) : List Book → List Nat × Library
  | [] => ([], l)
  | b :: bs =>
    let (position, l) := l.place b loc
    let (positions, l) := l.placeAll loc bs
    (position :: positions, l)

/-- Reads a text of books and places them all, or none if the text has an offence. -/
def ingest (l : Library) (text : String) (loc : Location) :
    Except Record.FormatError (List Nat × Library) :=
  (Book.read text).map (l.placeAll loc)

/-! ## Looking up -/

/-- The numbers of a shelf, of its row and of its room. -/
def locationOf (l : Library) (id : ShelfId) : Option Location := do
  let shelf ← l.shelves[id.position]?
  let row ← l.rows[shelf.row.position]?
  let room ← l.rooms[row.room.position]?
  return ⟨room.number, row.number, shelf.number⟩

/-- The book at a position of the catalog. -/
def book? (l : Library) (position : Nat) : Option Book := l.books[position]?

/-- The first book of the catalog with an ISBN. -/
def findIsbn (l : Library) (isbn : String) : Option Book := l.books.find? fun b => b.isbn == isbn

/-- Numbers of rooms, rows, shelves and books. -/
structure Counts where
  rooms : Nat
  rows : Nat
  shelves : Nat
  books : Nat
deriving Repr, DecidableEq

/-- How much a library holds. -/
def counts (l : Library) : Counts := ⟨l.rooms.size, l.rows.size, l.shelves.size, l.books.size⟩

/-- Four lines, the numbers below each other. -/
def Counts.text (c : Counts) : String :=
  "Rooms:   " ++ Text.natText c.rooms ++ "\nRows:    " ++ Text.natText c.rows ++
    "\nShelves: " ++ Text.natText c.shelves ++ "\nBooks:   " ++ Text.natText c.books

end Library

end LibraryCatalog
