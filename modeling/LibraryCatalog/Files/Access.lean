/-!
# `LibraryCatalog.Files.Access` — what can be asked of files

The library reads whole text files and asks whether a file exists, and nothing else. Whoever answers these two
questions is the file system.

## Contents
- **Failures.** `ReadFailure`, the reasons why a text cannot be read.
- **Files.** `Files`, the two questions.
-/

namespace LibraryCatalog

/-- Why a file cannot be read as a text. -/
inductive ReadFailure where
  /-- A name on the path does not exist, or the path is empty. -/
  | notFound
  /-- The path leads to a directory. -/
  | isDirectory
  /-- A name on the path that is not the last one is a file. -/
  | notDirectory
  /-- The bytes are not UTF-8. -/
  | notText
  /-- The path holds a character that no path can hold. -/
  | invalidPath
  /-- The path or a name on it exceeds the length that file systems allow. -/
  | nameTooLong
  /-- Any other reason, such as a missing permission. -/
  | refused
deriving Repr, DecidableEq

/-- A file system, by path. -/
structure Files where
  read : String → Except ReadFailure String
  isFile : String → Bool

end LibraryCatalog
