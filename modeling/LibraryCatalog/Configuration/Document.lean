import LibraryCatalog.Configuration.Basic
import LibraryCatalog.Toml.Reader

/-!
# `LibraryCatalog.Configuration.Document` — configurations as TOML documents

A document may set `log_filter` to a string and `shelves` to an array of tables with the strings `location` and
`file`. Other keys are passed over. Instead of such a table an array may stand that starts with the two strings.

## Contents
- **Writing.** `Configuration.toToml`.
- **Reading.** `ofMembers?` from a table, `ofToml?` from a text, `load` from a file.
-/

namespace LibraryCatalog

open Toml (Value Members)

/-! ## Writing -/

/-- A line with a key and a string. -/
def tomlLine (key : String) (text : String) : List Char :=
  key.toList ++ " = ".toList ++ Toml.quote text.toList ++ ['\n']

/-- The block of a record file. -/
def ShelfSource.toToml (s : ShelfSource) : List Char :=
  "[[shelves]]\n".toList ++ tomlLine "location" s.location.text ++ tomlLine "file" s.file

namespace Configuration

/-- The document of a configuration. An empty line stands before every block that is not at the front. -/
def toToml (c : Configuration) : String :=
  let filter := match c.logFilter with
    | some f => tomlLine "log_filter" f
    | none => []
  let blocks := match c.shelves with
    | [] => "shelves = []\n".toList
    | s :: ss =>
      (if filter.isEmpty then [] else ['\n']) ++ s.toToml ++ ss.flatMap fun s => '\n' :: s.toToml
  String.ofList (filter ++ blocks)

end Configuration

/-! ## Reading -/

/-- The text of a string. -/
def Toml.Value.text? : Value → Option String
  | .string s => some s
  | _ => none

/-- A record file, given its two texts. -/
def ShelfSource.ofTexts? (location file : Value) : Option ShelfSource := do
  let l ← Location.ofChars? (← location.text?).toList
  return ⟨l, ← file.text?⟩

/-- The record file that a table gives. -/
def ShelfSource.ofMembers? (ms : Members) : Option ShelfSource := do
  ofTexts? (← ms.lookup "location") (← ms.lookup "file")

/-- The record file that a value gives. -/
def ShelfSource.ofValue? : Value → Option ShelfSource
  | .table _ ms => ofMembers? ms
  | .array (location :: file :: _) => ofTexts? location file
  | _ => none

namespace Configuration

/-- The record files that an array gives. -/
def shelves? : Value → Option (List ShelfSource)
  | .array vs => vs.mapM ShelfSource.ofValue?
  | .tables mss => mss.mapM ShelfSource.ofMembers?
  | _ => none

/-- The configuration that a document gives. -/
def ofMembers? (ms : Members) : Option Configuration := do
  let filter ← match ms.lookup "log_filter" with
    | some v => v.text?.map some
    | none => some none
  let shelves ← match ms.lookup "shelves" with
    | some v => shelves? v
    | none => some []
  return ⟨filter, shelves⟩

/-- Reads a document as a configuration. -/
def ofToml? (text : String) : Option Configuration := (Toml.read? text).bind ofMembers?

/-- Reads the configuration at a path. Its relative files are taken from the directory of that path. -/
def load (files : Files) (path : String) : Except ConfigurationError Configuration :=
  match files.read path with
  | .error cause => .error (.unreadable path cause)
  | .ok text =>
    match ofToml? text with
    | none => .error (.malformed path)
    | some c =>
      match Path.parent? path.toList with
      | some directory => .ok (c.under directory)
      | none => .ok c

end Configuration

end LibraryCatalog
