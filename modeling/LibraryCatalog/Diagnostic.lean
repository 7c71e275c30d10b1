/-!
# `LibraryCatalog.Diagnostic` — what a failure tells its reader

Every kind of failure is a type of its own, with one constructor or record for each cause. What is shown to a
person is derived from it.

## Contents
- **Shape.** `Diagnostic`, a stable code, one sentence on what went wrong and one on what to do about it.
-/

namespace LibraryCatalog

/-- The report of a failure. -/
structure Diagnostic where
  /-- A stable code, segment by segment. -/
  code : String
  /-- What went wrong. -/
  message : String
  /-- What to do about it. -/
  help : String
deriving Repr, DecidableEq

end LibraryCatalog
