import LibraryCatalog.Diagnostic
import LibraryCatalog.Text.Decimal

/-!
# `LibraryCatalog.Record.Error` — what can be wrong with a line

## Contents
- **Causes.** `Offence`, the four ways in which a line can be refused.
- **Failures.** `FormatError`, an offence and the number of its line.
-/

namespace LibraryCatalog.Record

/-! ## Causes -/

/-- Why a line is refused. -/
inductive Offence where
  /-- No record is open; `marker` would open one. -/
  | missingMarker (marker : String)
  /-- The line has no colon. -/
  | missingDelimiter
  /-- The key stands for no field. -/
  | unknownKey (key : String)
  /-- The field holds whole numbers, and the value is none. -/
  | invalidInteger (key value : String)
deriving Repr, DecidableEq

/-- The stable code of an offence. -/
def Offence.code : Offence → String
  | .missingMarker _ => "shelfmark::format::missing_marker"
  | .missingDelimiter => "shelfmark::format::missing_delimiter"
  | .unknownKey _ => "shelfmark::format::unknown_key"
  | .invalidInteger _ _ => "shelfmark::format::invalid_integer"

/-- What is wrong with a line. -/
def Offence.message : Offence → String
  | .missingMarker marker => "every entry must start with a \"" ++ marker ++ "\" record marker"
  | .missingDelimiter => "expected \"key: value\""
  | .unknownKey key => "unrecognized field key \"" ++ key ++ "\""
  | .invalidInteger key value => "value \"" ++ value ++ "\" for \"" ++ key ++ "\" is not an integer"

/-- How lines of that kind are written. The keys are those of books, whatever the kind of record. -/
def Offence.help : Offence → String
  | .missingMarker marker =>
    "Field lines are only valid inside a record. Begin each entry with a line starting with \"" ++ marker ++
      "\" (for example \"" ++ marker ++ ":\")."
  | .missingDelimiter =>
    "Separate the field name from its value with a colon, e.g. \"Title: Texts from Denmark\"."
  | .unknownKey _ =>
    "Recognized book keys are ISBN, Title, Author (or Authors), Publisher, Published (or PublicationYear) " ++
      "and NumberOfPages. Keys are case-sensitive."
  | .invalidInteger _ _ =>
    "This field holds a whole number written in base 10, e.g. \"Published: 2001\"."

/-! ## Failures -/

/-- The first offence of a text. -/
structure FormatError where
  /-- The number of the offending line, counted from one. -/
  line : Nat
  offence : Offence
deriving Repr, DecidableEq

/-- The report of the first offence, which starts with the number of its line. -/
def FormatError.diagnostic (e : FormatError) : Diagnostic where
  code := e.offence.code
  message := "line " ++ Text.natText e.line ++ ": " ++ e.offence.message
  help := e.offence.help

end LibraryCatalog.Record
