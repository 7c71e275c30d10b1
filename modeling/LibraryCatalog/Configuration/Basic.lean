import LibraryCatalog.Diagnostic
import LibraryCatalog.Files.Access
import LibraryCatalog.Files.Path
import LibraryCatalog.Location

/-!
# `LibraryCatalog.Configuration.Basic` — which record files stand where

A configuration lists the record files of a catalog with the location on which the books of each are placed.

## Contents
- **Types.** `ShelfSource`, `Configuration`, and `ConfigurationError`.
- **Relative files.** `Configuration.under`, a configuration as seen from its directory.
- **Default place.** `Configuration.defaultPath`.
-/

namespace LibraryCatalog

/-! ## Types -/

/-- A record file and where its books go. -/
structure ShelfSource where
  location : Location
  file : String
deriving Repr, DecidableEq

/-- The record files of a catalog in the order in which they are read. -/
structure Configuration where
  /-- Which log lines are of interest. -/
  logFilter : Option String
  shelves : List ShelfSource
deriving Repr, DecidableEq

/-- Why there is no configuration. -/
inductive ConfigurationError where
  /-- The environment does not tell where configurations are kept. -/
  | noHome
  /-- The file cannot be read. -/
  | unreadable (path : String) (cause : ReadFailure)
  /-- The file is no configuration. -/
  | malformed (path : String)
deriving Repr, DecidableEq

/-- The report of a missing configuration. -/
def ConfigurationError.diagnostic : ConfigurationError → Diagnostic
  | .noHome => {
      code := "shelfmark::config::no_home"
      message := "cannot determine home directory"
      help := "Set the HOME environment variable or pass --config explicitly." }
  | .unreadable path _ => {
      code := "shelfmark::config::read"
      message := "failed to read config: " ++ path
      help := "Ensure the config file exists and is readable." }
  | .malformed path => {
      code := "shelfmark::config::parse"
      message := "failed to parse config: " ++ path ++ ": "
      help := "Check the TOML syntax in the config file." }

namespace Configuration

/-- A configuration that lists nothing. -/
def empty : Configuration := ⟨none, []⟩

/-! ## Relative files -/

/-- The configuration with its relative files taken from a directory. -/
def under (directory : List Char) (c : Configuration) : Configuration :=
  { c with shelves := c.shelves.map fun s =>
      { s with file := String.ofList (Path.under directory s.file.toList) } }

/-! ## Default place -/

/-- The environment variables that tell where configurations are kept. A variable may be set and empty. -/
structure Environment where
  configHome : Option String
  home : Option String
deriving Repr, DecidableEq

/-- The default path: in the directory for configurations, or else in `.config` of the home directory. -/
def defaultPath (env : Environment) : Except ConfigurationError String :=
  let below (directory : List Char) (name : String) := Path.join directory name.toList
  let path (directory : List Char) := String.ofList (below (below directory "shelfmark") "config.toml")
  match env.configHome, env.home with
  | some directory, _ => .ok (path directory.toList)
  | none, some home => .ok (path (below home.toList ".config"))
  | none, none => .error .noHome

end Configuration

end LibraryCatalog
