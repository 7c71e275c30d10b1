import LibraryCatalog.Json.Value

/-!
# `LibraryCatalog.Json.Reader` — text as trees

Every reader takes what it needs from the front of a text and gives back the rest. Blanks may stand between any
two tokens; nothing but blanks may follow the document.

## Contents
- **Tokens.** `skipBlanks`, `number`; strings are read by `pieces`.
- **Values.** `value`, `elements`, `members`, with a bound on their nesting that the length of the text gives.
- **Documents.** `ofChars?`, `read?`.
-/

namespace LibraryCatalog.Json

namespace Reader

/-! ## Tokens -/

/-- The blanks of JSON are four. -/
def isBlank (c : Char) : Bool := c == ' ' || c == '\n' || c == '\t' || c == '\r'

/-- Drops the blanks at the front. -/
def skipBlanks (cs : List Char) : List Char := cs.dropWhile isBlank

/-- One or more digits, and the rest. -/
def digits (cs : List Char) : Option (List Char × List Char) :=
  let ds := cs.takeWhile Char.isDigit
  if ds.isEmpty then none else some (ds, cs.dropWhile Char.isDigit)

/-- Digits that do not start with a zero, or a zero alone. -/
def whole (cs : List Char) : Option (List Char × List Char) :=
  (digits cs).filter fun (ds, _) => ds.length == 1 || ds.head? != some '0'

/-- A point and digits, if there is a point. -/
def fraction : List Char → Option (List Char × List Char)
  | '.' :: cs => (digits cs).map fun (ds, rest) => ('.' :: ds, rest)
  | cs => some ([], cs)

/-- An exponent, if the letter for one is there. -/
def exponent : List Char → Option (List Char × List Char)
  | c :: cs =>
    if c = 'e' ∨ c = 'E' then
      match cs with
      | '+' :: cs => (digits cs).map fun (ds, rest) => (c :: '+' :: ds, rest)
      | '-' :: cs => (digits cs).map fun (ds, rest) => (c :: '-' :: ds, rest)
      | cs => (digits cs).map fun (ds, rest) => (c :: ds, rest)
    else some ([], c :: cs)
  | [] => some ([], [])

/-- A number without its sign. -/
def magnitude (cs : List Char) : Option (List Char × List Char) := do
  let (ds, cs) ← whole cs
  let (fs, cs) ← fraction cs
  let (es, cs) ← exponent cs
  return (ds ++ fs ++ es, cs)

/-- A number. -/
def number : List Char → Option (Json × List Char)
  | '-' :: cs => (magnitude cs).map fun (literal, rest) => (.number ('-' :: literal), rest)
  | cs => (magnitude cs).map fun (literal, rest) => (.number literal, rest)

/-! ## Values -/

mutual

/-- A value at the front of a text. -/
def value : Nat → List Char → Option (Json × List Char)
  | 0, _ => none
  | bound + 1, cs =>
    match skipBlanks cs with
    | 'n' :: 'u' :: 'l' :: 'l' :: cs => some (.null, cs)
    | 't' :: 'r' :: 'u' :: 'e' :: cs => some (.bool true, cs)
    | 'f' :: 'a' :: 'l' :: 's' :: 'e' :: cs => some (.bool false, cs)
    | '"' :: cs => (pieces cs).map fun (ps, rest) => (.string ps, rest)
    | '[' :: cs =>
      match skipBlanks cs with
      | ']' :: rest => some (.array [], rest)
      | cs => (elements bound cs).map fun (js, rest) => (.array js, rest)
    | '{' :: cs =>
      match skipBlanks cs with
      | '}' :: rest => some (.object [], rest)
      | cs => (members bound cs).map fun (ms, rest) => (.object ms, rest)
    | cs => number cs

/-- One or more elements and the bracket after them. -/
def elements : Nat → List Char → Option (List Json × List Char)
  | 0, _ => none
  | bound + 1, cs => do
    let (j, cs) ← value bound cs
    match skipBlanks cs with
    | ',' :: cs =>
      let (js, rest) ← elements bound cs
      return (j :: js, rest)
    | ']' :: rest => return ([j], rest)
    | _ => none

/-- One or more members and the brace after them. -/
def members : Nat → List Char → Option (List (List Piece × Json) × List Char)
  | 0, _ => none
  | bound + 1, cs =>
    match skipBlanks cs with
    | '"' :: cs => do
      let (key, cs) ← pieces cs
      match skipBlanks cs with
      | ':' :: cs =>
        let (j, cs) ← value bound cs
        match skipBlanks cs with
        | ',' :: cs =>
          let (ms, rest) ← members bound cs
          return ((key, j) :: ms, rest)
        | '}' :: rest => return ([(key, j)], rest)
        | _ => none
      | _ => none
    | _ => none

end

end Reader

/-! ## Documents -/

/-- A document is one value with nothing but blanks after it. A value takes at least one character for every two
    steps into it, which bounds the nesting. -/
def ofChars? (cs : List Char) : Option Json :=
  match Reader.value (2 * cs.length + 2) cs with
  | some (j, rest) => if (Reader.skipBlanks rest).isEmpty then some j else none
  | none => none

/-- Reads a document. -/
def read? (text : String) : Option Json := ofChars? text.toList

end LibraryCatalog.Json
