import LibraryCatalog.CommandLine.Arguments
import LibraryCatalog.Configuration.Basic
import LibraryCatalog.Library.Inventory

/-!
# `LibraryCatalog.CommandLine.Invocation` — what the arguments ask for

A command line names one command. The options for the configuration and for further record files may stand before
the name, after it, or both; those after it take the place of those before it.

An explanation is given only if everything before the argument that asks for it fits, as far as it goes: what a
command needs may still be missing.

## Contents
- **Meaning.** `Command`, `Invocation`.
- **Values.** `only?` for options that stand once, `number?`, `path?`, `shelfSource?`.
- **Settings.** `Settings`, what a level says, and `Given.settings?`.
- **Reading.** `Command.ofSettings?`, `Command.ofArguments`, `Invocation.ofArguments`.
-/

namespace LibraryCatalog.CommandLine

open Text

/-! ## Meaning -/

/-- A command with its arguments. -/
inductive Command where
  /-- Show the books of a record file. -/
  | parse (file : String) (json : Bool)
  /-- Show the books that an expression selects. -/
  | search (expression : String) (json : Bool)
  /-- Show the books of a room, a row or a shelf. -/
  | inventory (q : InventoryQuery) (json : Bool)
  /-- Show the book with an ISBN. -/
  | find (isbn : String)
  /-- Show how much the library holds. -/
  | info
deriving Repr, DecidableEq

/-- A command, the configuration that is asked for, and record files to load after those of the configuration. -/
structure Invocation where
  config : Option String
  loads : List ShelfSource
  command : Command
deriving Repr, DecidableEq

/-! ## Values -/

/-- The value of an option that may be given once. -/
def only? : List α → Except Stop (Option α)
  | [] => .ok none
  | [a] => .ok (some a)
  | _ => .error .misuse

/-- A value that has to be there and to be understood. -/
def understood (a : Option α) : Except Stop α :=
  match a with
  | some a => .ok a
  | none => .error .misuse

/-- A number of the unsigned 32-bit range, with an optional sign. -/
def number? (text : String) : Option UInt32 := (signed? text.toList).bind uint32OfInt?

/-- A path, which is not empty. -/
def path? (text : String) : Option String := if text.isEmpty then none else some text

/-- A location, a sign of equality, and the path of a record file, which may hold such signs itself. -/
def shelfSource? (text : String) : Option ShelfSource := do
  let (location, file) ← cut '=' text.toList
  return ⟨← Location.ofChars? location, String.ofList file⟩

/-- The value of an option that may be given once. -/
def Given.only? (g : Given) (name : String) (read : String → Option α) : Except Stop (Option α) := do
  match ← CommandLine.only? (g.valuesOf name) with
  | some text => return some (← understood (read text))
  | none => return none

/-- Whether a flag is given, which it may be once. -/
def Given.flag? (g : Given) (name : String) : Except Stop Bool :=
  match g.countOf name with
  | 0 => .ok false
  | 1 => .ok true
  | _ => .error .misuse

/-- The word of a level. -/
def Given.word? (g : Given) : WordRole → Except Stop (Option String)
  | .absent => if g.words.isEmpty then .ok none else .error .misuse
  | .text => CommandLine.only? g.words
  | .path => do
    match ← CommandLine.only? g.words with
    | some w => return some (← understood (path? w))
    | none => return none

/-! ## Settings -/

/-- What the options and the word of a level say. -/
structure Settings where
  config : Option String
  loads : List ShelfSource
  room : Option UInt32
  row : Option UInt32
  shelf : Option UInt32
  json : Bool
  word : Option String
deriving Repr, DecidableEq

/-- What is given at a level, if every value can be understood and nothing is given too often. -/
def Given.settings? (level : Level) (g : Given) : Except Stop Settings := do
  let config ← g.only? "config" path?
  let loads ← (g.valuesOf "load").mapM fun text => understood (shelfSource? text)
  let room ← g.only? "room" number?
  let row ← g.only? "row" number?
  let shelf ← g.only? "shelf" number?
  let json ← g.flag? "json"
  let word ← g.word? level.word
  return ⟨config, loads, room, row, shelf, json, word⟩

/-! ## Reading -/

/-- The options that stand before or after the name of a command. -/
def globalOptions : List String := ["config", "load"]

/-- The level before the name of a command. -/
def outerLevel : Level :=
  ⟨globalOptions, [], true, .absent, ["parse", "search", "inventory", "find", "info", "help"]⟩

/-- The level after the name of a command. -/
def innerLevel : String → Level
  | "parse" => ⟨globalOptions, ["json"], false, .path, []⟩
  | "search" => ⟨globalOptions, ["json"], false, .text, []⟩
  | "inventory" => ⟨globalOptions ++ ["room", "row", "shelf"], ["json"], false, .absent, []⟩
  | "find" => ⟨globalOptions, [], false, .text, []⟩
  | _ => ⟨globalOptions, [], false, .absent, []⟩

/-- The command with a name, given the settings after it. -/
def Command.ofSettings? (name : String) (s : Settings) : Except Stop Command :=
  match name with
  | "parse" => return .parse (← understood s.word) s.json
  | "search" => return .search (← understood s.word) s.json
  | "inventory" => return .inventory ⟨← understood s.room, s.row, s.shelf⟩ s.json
  | "find" => return .find (← understood s.word)
  | "info" => return .info
  | _ => .error .misuse

/-- The command with a name, and the settings that the arguments after it give. -/
def Command.ofArguments (name : String) (args : List String) : Except Stop (Command × Settings) := do
  let (given, ending) := scan (innerLevel name) args
  let s ← given.settings? (innerLevel name)
  match ending with
  | .stop reason => throw reason
  | _ => return (← Command.ofSettings? name s, s)

/-- What an explanation may be asked for: nothing in particular, or one command. -/
def explain (topics : List String) : Stop :=
  match topics with
  | [] => .help
  | [topic] => if outerLevel.commands.contains topic then .help else .misuse
  | _ => .misuse

/-- Reads the arguments of a command line. -/
def Invocation.ofArguments (args : List String) : Except Stop Invocation := do
  let (given, ending) := scan outerLevel args
  match ending with
  | .finished => throw .misuse
  | .stop reason =>
    let _ ← given.settings? outerLevel
    throw reason
  | .command name rest =>
    let _ ← given.settled.settings? outerLevel
    if name = "help" then
      throw (explain rest)
    let (command, inner) ← Command.ofArguments name rest
    let outer ← given.settings? outerLevel
    return ⟨inner.config.or outer.config, if inner.loads.isEmpty then outer.loads else inner.loads, command⟩

end LibraryCatalog.CommandLine
