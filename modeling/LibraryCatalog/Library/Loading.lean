import LibraryCatalog.Configuration.Basic
import LibraryCatalog.Library.Basic

/-!
# `LibraryCatalog.Library.Loading` — record files on shelves

## Contents
- **Failures.** `LoadError`: a record file cannot be read, or its text has an offence.
- **One file.** `Files.recordText`, its text, and `loadFile` onto a shelf.
- **Several files.** `loadAll`, which stops at the first failure and keeps what came before it.
-/

namespace LibraryCatalog

/-! ## Failures -/

/-- Why the books of a record file cannot be had. -/
inductive LoadError where
  | unreadable (path : String) (cause : ReadFailure)
  | format (e : Record.FormatError)
deriving Repr, DecidableEq

/-- The report of a record file that cannot be had. -/
def LoadError.diagnostic : LoadError → Diagnostic
  | .unreadable path _ => {
      code := "shelfmark::io"
      message := "failed to read record file: " ++ path
      help := "Check that the file exists, is readable, and is valid UTF-8." }
  | .format e => e.diagnostic

/-! ## One file -/

/-- The text of a record file. -/
def Files.recordText (files : Files) (path : String) : Except LoadError String :=
  (files.read path).mapError (.unreadable path)

namespace Library

/-- Places the books of a record file. -/
def loadFile (l : Library) (files : Files) (s : ShelfSource) : Except LoadError (List Nat × Library) := do
  let text ← files.recordText s.file
  (l.ingest text s.location).mapError .format

/-! ## Several files -/

/-- Places the books of record files in their order. The first failure ends it; the books of the files before it
    stay. -/
def loadAll (l : Library) (files : Files) : List ShelfSource → Library × Except LoadError Unit
  | [] => (l, .ok ())
  | s :: ss =>
    match l.loadFile files s with
    | .ok (_, l) => l.loadAll files ss
    | .error e => (l, .error e)

/-- Places the books of all record files of a configuration. -/
def populate (l : Library) (files : Files) (c : Configuration) : Library × Except LoadError Unit :=
  l.loadAll files c.shelves

end Library

end LibraryCatalog
