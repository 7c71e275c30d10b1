import LibraryCatalog.Files.Access

/-!
# `LibraryCatalog.Files.Tree` — files in a directory tree

A tree knows its own files and directories. What lies outside of it is taken to be made of empty directories: one
can go there and come to no file.

## Contents
- **Type.** `Node`, `FileTree`, `Place`.
- **Walking.** `FileTree.step` by one name, `FileTree.resolve` along a path.
- **Files.** `FileTree.read`, `FileTree.isFile`, both in `FileTree.files`.
- **Writing.** `FileTree.write`, which creates the directories of a path.
-/

namespace LibraryCatalog

/-! ## Type -/

/-- What a name can stand for. -/
inductive Node where
  | file (bytes : ByteArray)
  | directory

/-- The nodes of a tree by their names, the innermost name first. -/
structure FileTree where
  nodes : List (List String × Node)

/-- Where a walk has come to. -/
inductive Place where
  /-- Inside the tree. -/
  | inside (names : List String)
  /-- In a directory outside of it. -/
  | outside
deriving Repr, DecidableEq

namespace FileTree

/-- A tree without files. -/
def empty : FileTree := ⟨[]⟩

/-- The node with some names. The tree itself is a directory. -/
def node? (t : FileTree) : List String → Option Node
  | [] => some .directory
  | names => t.nodes.lookup names

/-! ## Walking -/

/-- The pieces between the slashes of a path. -/
def piecesOf (path : String) : List String := (path.toList.splitOn '/').map String.ofList

/-- The longest name in bytes. -/
def nameLimit : Nat := 255

/-- The longest path in bytes. -/
def pathLimit : Nat := 4095

/-- One step from a directory. An empty piece and a dot stay in it, two dots lead out of it. -/
def step (t : FileTree) (here : Place) (piece : String) : Except ReadFailure Place :=
  match here with
  | .outside =>
    if piece = "" ∨ piece = "." ∨ piece = ".." then .ok .outside
    else if nameLimit < piece.utf8ByteSize then .error .nameTooLong
    else .error .notFound
  | .inside names =>
    match t.node? names with
    | none => .error .notFound
    | some (.file _) => .error .notDirectory
    | some .directory =>
      if piece = "" ∨ piece = "." then .ok (.inside names)
      else if piece = ".." then
        match names with
        | [] => .ok .outside
        | _ :: names => .ok (.inside names)
      else if nameLimit < piece.utf8ByteSize then .error .nameTooLong
      else if (t.node? (piece :: names)).isNone then .error .notFound
      else .ok (.inside (piece :: names))

/-- Where a path leads to. -/
def resolve (t : FileTree) (path : String) : Except ReadFailure Place :=
  if path = "" then .error .notFound
  else if path.toList.contains '\x00' then .error .invalidPath
  else if pathLimit < path.utf8ByteSize then .error .nameTooLong
  else
    match piecesOf path with
    | "" :: pieces => pieces.foldlM t.step .outside
    | pieces => pieces.foldlM t.step (.inside [])

/-! ## Files -/

/-- The bytes of the file at a path. -/
def bytes (t : FileTree) (path : String) : Except ReadFailure ByteArray :=
  match t.resolve path with
  | .error e => .error e
  | .ok .outside => .error .isDirectory
  | .ok (.inside names) =>
    match t.node? names with
    | some (.file bytes) => .ok bytes
    | some .directory => .error .isDirectory
    | none => .error .notFound

/-- The text of the file at a path. -/
def read (t : FileTree) (path : String) : Except ReadFailure String :=
  match t.bytes path with
  | .error e => .error e
  | .ok bytes =>
    match String.fromUTF8? bytes with
    | some text => .ok text
    | none => .error .notText

/-- Whether there is a file at a path. -/
def isFile (t : FileTree) (path : String) : Bool := (t.bytes path).isOk

/-- The tree as a file system. -/
def files (t : FileTree) : Files := ⟨t.read, t.isFile⟩

/-! ## Writing -/

/-- The tree with a node under some names. -/
def put (t : FileTree) (names : List String) (n : Node) : FileTree :=
  ⟨(names, n) :: t.nodes.filter fun (other, _) => other != names⟩

/-- Goes into a directory and creates it if it is missing; two dots lead out of it. -/
def enter (t : FileTree) (names : List String) (piece : String) : FileTree × List String :=
  if piece = "" ∨ piece = "." then (t, names)
  else if piece = ".." then (t, names.tail)
  else
    let names := piece :: names
    match t.node? names with
    | some _ => (t, names)
    | none => (t.put names .directory, names)

/-- The tree with a file at a relative path, and with the directories that the path names. -/
def write (t : FileTree) (path : String) (bytes : ByteArray) : FileTree :=
  let pieces := piecesOf path
  let (t, names) := pieces.dropLast.foldl (fun (t, names) piece => t.enter names piece) (t, [])
  t.put (pieces.getLastD "" :: names) (.file bytes)

end FileTree

end LibraryCatalog
