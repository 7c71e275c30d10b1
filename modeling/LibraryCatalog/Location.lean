import LibraryCatalog.Diagnostic
import LibraryCatalog.Text.Blank
import LibraryCatalog.Text.Decimal

/-!
# `LibraryCatalog.Location` — where a shelf stands, as people write it

A location names a shelf by three numbers: the room, the row within the room, the shelf within the row. It is
written `room/row/shelf`. Only positive numbers can be read; a location made of numbers may contain zeros.

## Contents
- **Type.** `Location`, `Location.text`.
- **Reading.** `Location.ofText?` and, with the failure that quotes its input, `Location.read`.
-/

namespace LibraryCatalog

/-- The numbers of a room, of a row in it and of a shelf in that row. -/
structure Location where
  room : UInt32
  row : UInt32
  shelf : UInt32
deriving Repr, DecidableEq

namespace Location

/-! ## Writing -/

/-- The three numbers in base ten, with a slash between them. -/
def chars (l : Location) : List Char :=
  Text.showNat l.room.toNat ++ '/' :: Text.showNat l.row.toNat ++ '/' :: Text.showNat l.shelf.toNat

/-- The written form of a location. -/
def text (l : Location) : String := String.ofList l.chars

/-! ## Reading -/

/-- A positive number with white space around it. -/
def number? (cs : List Char) : Option UInt32 :=
  (Text.uint32? (Text.trim cs)).filter (0 < ·)

/-- Reads three positive numbers between slashes. -/
def ofChars? (cs : List Char) : Option Location :=
  match cs.splitOn '/' with
  | [room, row, shelf] => do
    return ⟨← number? room, ← number? row, ← number? shelf⟩
  | _ => none

/-- A text that is no location. -/
structure Malformed where
  input : String
deriving Repr, DecidableEq

/-- The report of a text that is no location. -/
def Malformed.diagnostic (m : Malformed) : Diagnostic where
  code := "shelfmark::config::invalid_location"
  message := "invalid shelf location \"" ++ m.input ++ "\""
  help := "A location is three positive numbers: room/row/shelf, e.g. \"1/2/1\". " ++
    "When loading a file from the command line use LOCATION=PATH."

/-- Reads a location; a failure quotes the whole text. -/
def read (text : String) : Except Malformed Location :=
  match ofChars? text.toList with
  | some l => .ok l
  | none => .error ⟨text⟩

end Location

end LibraryCatalog
