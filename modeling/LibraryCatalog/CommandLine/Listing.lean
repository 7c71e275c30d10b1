import LibraryCatalog.Interchange
import LibraryCatalog.Library.Basic

/-!
# `LibraryCatalog.CommandLine.Listing` — how books are shown

A book takes one line for its title, with the location of its shelf if it has one, and one indented line for each
of the other things that are known about it.

## Contents
- **One book.** `bookLines`.
- **Several books.** `listing`, as such lines or as a JSON array.
-/

namespace LibraryCatalog.CommandLine

open Text

/-! ## One book -/

/-- The location of a book, if a library holds it on a shelf. -/
def locationIn (l : Option Library) (b : Book) : Option Location := do
  (← l).locationOf (← b.shelf)

/-- The lines of a book. -/
def bookLines (l : Option Library) (b : Book) : List String :=
  let heading := match locationIn l b with
    | some loc => "[" ++ loc.text ++ "] " ++ b.title
    | none => b.title
  [heading] ++
    (if b.authors.isEmpty then [] else ["    by " ++ ", ".intercalate b.authors]) ++
    (if b.publisher.isEmpty && b.publicationYear == 0 then []
      else ["    " ++ b.publisher ++ " (" ++ intText b.publicationYear.toInt ++ ")"]) ++
    (if b.isbn.isEmpty then [] else ["    ISBN " ++ b.isbn]) ++
    (if b.numberOfPages == 0 then [] else ["    " ++ intText b.numberOfPages.toInt ++ " pages"])

/-! ## Several books -/

/-- Some lines as a text, each with its end. -/
def linesText (lines : List String) : String := String.join (lines.map fun line => line ++ "\n")

/-- Some books as they are shown. -/
def listing (l : Option Library) (json : Bool) (books : List Book) : String :=
  if json then Book.listText books ++ "\n" else linesText (books.flatMap (bookLines l))

end LibraryCatalog.CommandLine
