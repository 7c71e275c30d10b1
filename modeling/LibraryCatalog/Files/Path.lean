/-!
# `LibraryCatalog.Files.Path` — paths as texts

A path is a text whose names are separated by slashes; it is absolute if it starts with one. Repeated slashes and
single dots between names mean nothing, but they stay where a path keeps them.

## Contents
- **Directory.** `Path.parent?`, the path of the directory that holds a file.
- **Joining.** `Path.join`, and `Path.under` for paths that may be absolute.
-/

namespace LibraryCatalog.Path

/-- Whether a path starts at the root. -/
def isAbsolute (path : List Char) : Bool := path.head? == some '/'

/-! ## Directory -/

/-- A piece between slashes that names nothing. -/
def isVoid (piece : List Char) : Bool := piece.isEmpty || piece == ['.']

/-- Drops the pieces at the end that name nothing. -/
def dropVoid (pieces : List (List Char)) : List (List Char) :=
  (pieces.reverse.dropWhile isVoid).reverse

/-- The directory part of a path: the path without its last name. The first piece, which a slash or a dot in front
    makes empty or a dot, counts as a name only when it stands alone. -/
def parent? (path : List Char) : Option (List Char) :=
  match path.splitOn '/' with
  | [] => none
  | first :: pieces =>
    let pieces := dropVoid pieces
    if pieces.isEmpty then if first.isEmpty then none else some []
    else
      let pieces := dropVoid pieces.dropLast
      if first.isEmpty && pieces.isEmpty then some ['/']
      else some (List.intercalate ['/'] (first :: pieces))

/-! ## Joining -/

/-- A relative path below a directory. One slash separates them, unless the directory is the empty path or ends
    with a slash already. -/
def join (directory path : List Char) : List Char :=
  if directory.isEmpty || directory.getLast? == some '/' then directory ++ path
  else directory ++ '/' :: path

/-- A path as seen from a directory: an absolute one stays, a relative one goes below it. -/
def under (directory path : List Char) : List Char :=
  if isAbsolute path then path else join directory path

theorem under_nil (path : List Char) : under [] path = path := by
  unfold under
  split <;> simp [join]

end LibraryCatalog.Path
