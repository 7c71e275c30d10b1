import LibraryCatalog.CommandLine.Run

/-!
# `LibraryCatalog.Main` — the program

The program reads the files that a command line speaks of, first that of the configuration and then the record
files, and leaves the rest to `CommandLine.run`.

## Contents
- **Files.** `readText`, `readTexts`.
- **Texts.** `usage`.
- **Program.** `main`.
-/

namespace LibraryCatalog

open CommandLine

/-! ## Files -/

/-- What the system says about a file that cannot be read. -/
def ReadFailure.ofError : IO.Error → ReadFailure
  | .noFileOrDirectory .. => .notFound
  | .inappropriateType .. => .isDirectory
  | _ => .refused

/-- The text of a file. -/
def readText (path : String) : IO (Except ReadFailure String) := do
  try
    match String.fromUTF8? (← IO.FS.readBinFile path) with
    | some text => return .ok text
    | none => return .error .notText
  catch e => return .error (.ofError e)

/-- Whether an attempt to read shows that there is a file. -/
def showsFile : Except ReadFailure String → Bool
  | .ok _ => true
  | .error .notText => true
  | .error _ => false

/-- The files at some paths. -/
def readTexts (paths : List String) : IO Files := do
  let texts ← paths.mapM fun path => return (path, ← readText path)
  let read (path : String) := (texts.lookup path).getD (.error .notFound)
  return ⟨read, fun path => showsFile (read path)⟩

/-- The file of the configuration that an invocation may use. -/
def configurationPath (env : Configuration.Environment) (i : Invocation) : List String :=
  match i.config with
  | some path => [path]
  | none => (Configuration.defaultPath env).toOption.toList

/-- The record files that an invocation may read. -/
def recordPaths (c : Configuration) (i : Invocation) : List String :=
  match i.command with
  | .parse path _ => [path]
  | _ => c.shelves.map ShelfSource.file ++ i.loads.map ShelfSource.file

/-! ## Texts -/

/-- The commands and their options. -/
def usage : String :=
  "Usage: shelfmark [--config PATH] [--load ROOM/ROW/SHELF=PATH]... COMMAND\n\n" ++
    "Commands:\n" ++
    "  parse FILE [--json]                                  show the books of a record file\n" ++
    "  search QUERY [--json]                                show the books that a query selects\n" ++
    "  inventory --room N [--row N] [--shelf N] [--json]    show the books of a room, row or shelf\n" ++
    "  find ISBN                                            show the book with an ISBN\n" ++
    "  info                                                 show how much the catalog holds\n"

end LibraryCatalog

open LibraryCatalog LibraryCatalog.CommandLine in
/-- Runs a command line. -/
def main (args : List String) : IO UInt32 := do
  match Invocation.ofArguments args with
  | .error .help =>
    IO.print usage
    return 0
  | .error .misuse =>
    IO.eprint usage
    return 2
  | .ok i =>
    let env : Configuration.Environment := ⟨← IO.getEnv "XDG_CONFIG_HOME", ← IO.getEnv "HOME"⟩
    let files ← readTexts (configurationPath env i)
    let c := (resolveConfiguration files env i.config).toOption.getD .empty
    let files ← readTexts (configurationPath env i ++ recordPaths c i)
    match run files env i with
    | .ok stdout =>
      IO.print stdout
      return 0
    | .error f =>
      IO.eprintln ("error: " ++ f.message)
      return 1
