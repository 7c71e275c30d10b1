import LibraryCatalog.Toml.Quoted
import LibraryCatalog.Toml.Scalar
import LibraryCatalog.Toml.Value

/-!
# `LibraryCatalog.Toml.Reader` — text as documents

Every reader takes what it needs from the front of a text and gives back the rest.

## Contents
- **Blanks.** `skipBlanks` on a line, `skipFiller` over lines and comments, `lineEnd?`.
- **Keys.** `simpleKey?`, `dottedKey?`.
- **Values.** `value`, with a limit on their nesting.
- **Documents.** `statements` as they are written, `Toml.read?` as the table that they define.
-/

namespace LibraryCatalog.Toml

namespace Reader

/-! ## Blanks -/

/-- The blanks inside a line are two. -/
def isBlank (c : Char) : Bool := c == ' ' || c == '\t'

/-- Drops the blanks at the front. -/
def skipBlanks (cs : List Char) : List Char := cs.dropWhile isBlank

/-- Drops the blanks, line ends and comments at the front; `inComment` if they start within a comment. -/
def skipFiller (inComment : Bool) : List Char → List Char
  | [] => []
  | '\n' :: cs => skipFiller false cs
  | '\r' :: '\n' :: cs => skipFiller false cs
  | c :: cs =>
    if inComment then if isPlain c then skipFiller true cs else c :: cs
    else if isBlank c then skipFiller false cs
    else if c = '#' then skipFiller true cs
    else c :: cs

/-- A line end, or the end of the text. -/
def newline? : List Char → Option (List Char)
  | [] => some []
  | '\n' :: cs => some cs
  | '\r' :: '\n' :: cs => some cs
  | _ => none

/-- The end of a line, with blanks and a comment before it. -/
def lineEnd? (cs : List Char) : Option (List Char) :=
  match skipBlanks cs with
  | '#' :: cs => newline? (cs.dropWhile isPlain)
  | cs => newline? cs

/-! ## Keys -/

/-- A character of a key without quotes. -/
def isBare (c : Char) : Bool := c.isAlphanum || c == '-' || c == '_'

/-- One key, with or without quotes. -/
def simpleKey? : List Char → Option (List Char × List Char)
  | [] => none
  | c :: cs =>
    if c = '"' then basic 0 cs
    else if c = apostrophe then literal cs
    else if isBare c then some ((c :: cs).takeWhile isBare, (c :: cs).dropWhile isBare)
    else none

/-- One or more keys with points between them and blanks around them, and the rest. A point takes a character, so
    that the length of the text bounds their number. -/
def keys : Nat → List Char → Option (List String × List Char)
  | 0, _ => none
  | bound + 1, cs => do
    let (key, cs) ← simpleKey? (skipBlanks cs)
    match skipBlanks cs with
    | '.' :: cs =>
      let (path, rest) ← keys bound cs
      return (String.ofList key :: path, rest)
    | rest => return ([String.ofList key], rest)

/-- The limit on the parts of a key and on the nesting of values. -/
def limit : Nat := 80

/-- A dotted key of fewer parts than the limit: what leads to its last part, the last part, and the rest. -/
def dottedKey? (cs : List Char) : Option (List String × String × List Char) := do
  let (parts, rest) ← keys (cs.length + 1) cs
  if parts.length < limit then return (parts.dropLast, ← parts.getLast?, rest) else none

/-! ## Values -/

/-- The elements of an array and the bracket after them. A comma may follow the last one. -/
def elements (item : List Char → Option (Value × List Char)) :
    Nat → List Char → Option (List Value × List Char)
  | 0, _ => none
  | bound + 1, cs =>
    match skipFiller false cs with
    | ']' :: rest => some ([], rest)
    | cs => do
      let (v, cs) ← item cs
      match skipFiller false cs with
      | ']' :: rest => return ([v], rest)
      | ',' :: cs =>
        let (vs, rest) ← elements item bound cs
        return (v :: vs, rest)
      | _ => none

/-- A key, the sign of equality, and a value. -/
def assignment? (item : List Char → Option (Value × List Char)) (cs : List Char) :
    Option (Assignment × List Char) := do
  let (path, key, cs) ← dottedKey? cs
  match cs with
  | '=' :: cs =>
    let (v, rest) ← item (skipBlanks cs)
    return (⟨path, key, v⟩, rest)
  | _ => none

/-- One or more assignments and the brace after them. No comma may follow the last one. -/
def assignments (item : List Char → Option (Value × List Char)) :
    Nat → List Char → Option (List Assignment × List Char)
  | 0, _ => none
  | bound + 1, cs => do
    let (a, cs) ← assignment? item cs
    match skipBlanks cs with
    | '}' :: rest => return ([a], rest)
    | ',' :: cs =>
      let (as, rest) ← assignments item bound cs
      return (a :: as, rest)
    | _ => none

/-- A value at the front of a text, in which values may be nested `depth` deep. -/
def value : Nat → List Char → Option (Value × List Char)
  | depth, cs =>
    match cs with
    | '[' :: cs =>
      match depth with
      | 0 => none
      | depth + 1 => (elements (value depth) (cs.length + 1) cs).map fun (vs, rest) => (.array vs, rest)
    | '{' :: cs =>
      match depth with
      | 0 => none
      | depth + 1 =>
        match skipBlanks cs with
        | '}' :: rest => some (.table .inline [], rest)
        | cs => do
          let (as, rest) ← assignments (value depth) (cs.length + 1) cs
          return (.table .inline (← assignAll [] as), rest)
    | c :: cs =>
      if c = '"' ∨ c = apostrophe then
        (string? (c :: cs)).map fun (text, rest) => (.string (String.ofList text), rest)
      else (Scalar.scalar? (c :: cs)).map fun rest => (.scalar, rest)
    | [] => none

/-! ## Documents -/

/-- A header, from its first bracket on. -/
def header? : List Char → Option (Header × List Char)
  | '[' :: '[' :: cs => do
    let (path, key, cs) ← dottedKey? cs
    match cs with
    | ']' :: ']' :: rest => return (⟨path, key, true⟩, rest)
    | _ => none
  | '[' :: cs => do
    let (path, key, cs) ← dottedKey? cs
    match cs with
    | ']' :: rest => return (⟨path, key, false⟩, rest)
    | _ => none
  | _ => none

/-- The assignments before the first header, and the sections. Every line takes a character, which bounds their
    number. -/
def statements : Nat → List Char → Option (List Assignment × List Section)
  | 0, _ => none
  | bound + 1, cs =>
    match skipBlanks cs with
    | [] => some ([], [])
    | c :: cs =>
      if c = '\n' ∨ c = '\r' ∨ c = '#' then do
        statements bound (← lineEnd? (c :: cs))
      else if c = '[' then do
        let (header, cs) ← header? (c :: cs)
        let (body, sections) ← statements bound (← lineEnd? cs)
        return ([], ⟨header, body⟩ :: sections)
      else do
        let (a, cs) ← assignment? (value (limit - 1)) (c :: cs)
        let (as, sections) ← statements bound (← lineEnd? cs)
        return (a :: as, sections)

end Reader

/-- The table that the statements of a document define. -/
def ofStatements? (as : List Assignment) (sections : List Section) : Option Members := do
  sections.foldlM addSection (← assignAll [] as)

/-- Reads a document. A byte order mark at its front is no part of it. -/
def ofChars? (cs : List Char) : Option Members := do
  let cs := if cs.head? = some '\uFEFF' then cs.tail else cs
  let (as, sections) ← Reader.statements (cs.length + 1) cs
  ofStatements? as sections

/-- Reads a document. -/
def read? (text : String) : Option Members := ofChars? text.toList

end LibraryCatalog.Toml
