import LibraryCatalog.CommandLine.Invocation
import LibraryCatalog.CommandLine.Listing
import LibraryCatalog.Configuration.Document
import LibraryCatalog.Library.Loading

/-!
# `LibraryCatalog.CommandLine.Run` — the commands

Whatever the command, the configuration comes first. Commands on the library then load the record files of the
configuration and those of the command line, and only then do their own work. The first failure ends it all, and
nothing is printed then.

## Contents
- **Failures.** `Failure`, with a code where there is one.
- **Steps.** `resolveConfiguration`, `loadLibrary`.
- **Commands.** `run` gives what is printed; `outcome` starts from the arguments and gives what can be seen.
-/

namespace LibraryCatalog.CommandLine

open Text

/-! ## Failures -/

/-- Why a command fails. -/
inductive Failure where
  | configuration (e : ConfigurationError)
  | load (e : LoadError)
  | inventory (e : InventoryError)
  /-- No book has the ISBN. -/
  | notFound (isbn : String)
deriving Repr, DecidableEq

/-- The code of a failure. A search for an ISBN that finds nothing has none. -/
def Failure.code : Failure → Option String
  | .configuration e => some e.diagnostic.code
  | .load e => some e.diagnostic.code
  | .inventory e => some e.diagnostic.code
  | .notFound _ => none

/-- What went wrong. -/
def Failure.message : Failure → String
  | .configuration e => e.diagnostic.message
  | .load e => e.diagnostic.message
  | .inventory e => e.diagnostic.message
  | .notFound isbn => "no book with ISBN \"" ++ isbn ++ "\" in the catalog"

/-! ## Steps -/

/-- The configuration that is in effect. One that is asked for has to exist; the one at the default path is used if
    there is a file. -/
def resolveConfiguration (files : Files) (env : Configuration.Environment) (asked : Option String) :
    Except ConfigurationError Configuration :=
  match asked with
  | some path => Configuration.load files path
  | none =>
    match Configuration.defaultPath env with
    | .ok path => if files.isFile path then Configuration.load files path else .ok .empty
    | .error _ => .ok .empty

/-- The library with the books of a configuration and then of further record files. -/
def loadLibrary (files : Files) (c : Configuration) (loads : List ShelfSource) : Except LoadError Library := do
  let (l, result) := Library.empty.populate files c
  result
  let (l, result) := l.loadAll files loads
  result
  return l

/-! ## Commands -/

/-- What a command on the library prints. -/
def Command.onLibrary (l : Library) : Command → Except Failure String
  | .parse _ _ => .ok ""
  | .search expression json =>
    let found := (l.search expression).map Entry.book
    let summary := natText found.length ++ " of " ++ natText l.books.size ++
      " books match \"" ++ expression ++ "\"\n"
    .ok (listing (some l) json found ++ if json then "" else summary)
  | .inventory q json =>
    match l.inventory q with
    | .ok es => .ok (listing (some l) json (es.map Entry.book))
    | .error e => .error (.inventory e)
  | .find isbn =>
    match l.findIsbn isbn with
    | some b => .ok (listing (some l) false [b])
    | none => .error (.notFound isbn)
  | .info => .ok (l.counts.text ++ "\n")

/-- What showing a record file prints. -/
def showFile (files : Files) (path : String) (json : Bool) : Except LoadError String := do
  let text ← files.recordText path
  let books ← (Book.read text).mapError .format
  return listing none json books

/-- What an invocation prints. -/
def run (files : Files) (env : Configuration.Environment) (i : Invocation) : Except Failure String := do
  let c ← (resolveConfiguration files env i.config).mapError .configuration
  match i.command with
  | .parse path json => (showFile files path json).mapError .load
  | command =>
    let l ← (loadLibrary files c i.loads).mapError .load
    command.onLibrary l

/-- What can be seen of a run. -/
structure Outcome where
  /-- 0 after success, 1 after a failure, 2 if the arguments do not fit. -/
  exit : Nat
  stdout : String
  /-- The code of the failure that was reported, if it has one. -/
  code : Option String
deriving Repr, DecidableEq

/-- What can be seen when a command line is run. An explanation of the options goes without a text here. -/
def outcome (files : Files) (env : Configuration.Environment) (args : List String) : Outcome :=
  match Invocation.ofArguments args with
  | .error .misuse => ⟨2, "", none⟩
  | .error .help => ⟨0, "", none⟩
  | .ok i =>
    match run files env i with
    | .ok stdout => ⟨0, stdout, none⟩
    | .error f => ⟨1, "", f.code⟩

end LibraryCatalog.CommandLine
