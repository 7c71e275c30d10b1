import LibraryCatalog.Text.Hex

/-!
# `LibraryCatalog.Toml.Quoted` — the four ways of writing a string

A string stands on one line or spreads over several, between double quotes, where escapes are understood, or
between single quotes, where every character stands for itself. Written strings take the plainest of the four
that can hold them.

## Contents
- **Writing.** `Style`, `style` for the choice, `quote`.
- **Escapes.** `escape?`, and `gap` for a line break that an escape hides.
- **Reading.** `basic`, `literal`, `multiBasic`, `multiLiteral`, and `string?` for any of them.
-/

namespace LibraryCatalog.Toml

open Text

/-- The single quote. -/
def apostrophe : Char := '\x27'

/-! ## Writing -/

/-- The ways of writing a string. -/
inductive Style where
  /-- One line between double quotes. -/
  | basic
  /-- One line between single quotes. -/
  | literal
  /-- Lines between three double quotes. -/
  | multiBasic
  /-- Lines between three single quotes. -/
  | multiLiteral
deriving Repr, DecidableEq

/-- The longest run of a character, when `run` of them stand right before the text. -/
def longestRunFrom (q : Char) (run : Nat) : List Char → Nat
  | [] => run
  | c :: cs => if c = q then longestRunFrom q (run + 1) cs else max run (longestRunFrom q 0 cs)

/-- The longest run of a character. -/
def longestRun (q : Char) (cs : List Char) : Nat := longestRunFrom q 0 cs

/-- A control character that only an escape can write. -/
def needsEscape (c : Char) : Bool := (c < ' ' && c != '\t' && c != '\n') || c == '\x7f'

/-- The style for a text: the first of the four in which nothing needs an escape, and if there is none, double
    quotes. -/
def style (cs : List Char) : Style :=
  let control := cs.any needsEscape
  let backslash := cs.contains '\\'
  let newline := cs.contains '\n'
  let double := longestRun '"' cs
  let single := longestRun apostrophe cs
  if !control && !backslash && double == 0 && !newline then .basic
  else if !control && single == 0 && !newline then .literal
  else if !control && !backslash && double ≤ 2 then .multiBasic
  else if !control && single ≤ 2 then .multiLiteral
  else if newline then .multiBasic
  else .basic

/-- A character other than a double quote or a line feed, between double quotes. -/
def escapeChar (c : Char) : List Char :=
  if c = '\\' then ['\\', '\\']
  else if c = '\x08' then ['\\', 'b']
  else if c = '\t' then ['\\', 't']
  else if c = '\x0c' then ['\\', 'f']
  else if c = '\r' then ['\\', 'r']
  else if c < ' ' || c == '\x7f' then '\\' :: 'u' :: (hex4 c.toNat).map Char.toUpper
  else [c]

/-- The text of one line between double quotes. -/
def escapeLine (cs : List Char) : List Char :=
  cs.flatMap fun c =>
    if c = '"' then ['\\', '"'] else if c = '\n' then ['\\', 'n'] else escapeChar c

/-- The text of lines between three double quotes. Of `run` double quotes that stand right before it, none ends
    the string; a third one in a row is escaped, and the count starts again. -/
def escapeLines (run : Nat) : List Char → List Char
  | [] => []
  | c :: cs =>
    if c = '"' then
      if run = 2 then '\\' :: '"' :: escapeLines 0 cs else '"' :: escapeLines (run + 1) cs
    else if c = '\n' then '\n' :: escapeLines 0 cs
    else escapeChar c ++ escapeLines 0 cs

/-- The line feed that follows three quotes if the text has lines. -/
def opening (cs : List Char) : List Char := if cs.contains '\n' then ['\n'] else []

/-- A text between the quotes of a style. -/
def quoteAs (s : Style) (cs : List Char) : List Char :=
  match s with
  | .basic => '"' :: escapeLine cs ++ ['"']
  | .literal => apostrophe :: cs ++ [apostrophe]
  | .multiBasic => ['"', '"', '"'] ++ opening cs ++ escapeLines 0 cs ++ ['"', '"', '"']
  | .multiLiteral =>
    [apostrophe, apostrophe, apostrophe] ++ opening cs ++ cs ++ [apostrophe, apostrophe, apostrophe]

/-- A text as a string. -/
def quote (cs : List Char) : List Char := quoteAs (style cs) cs

/-! ## Escapes -/

/-- The character that a number of digits of base sixteen stands for. -/
def scalar? (count : Nat) (cs : List Char) : Option Char :=
  let ds := cs.take count
  if ds.length = count then
    (hex? ds).bind fun n =>
      if n < 0xD800 ∨ (0xDFFF < n ∧ n < 0x110000) then some (Char.ofNat n) else none
  else none

/-- The character of an escape after its backslash, and how many characters the escape takes. -/
def escape? : List Char → Option (Char × Nat)
  | [] => none
  | c :: cs =>
    match c with
    | 'b' => some ('\x08', 1)
    | 't' => some ('\t', 1)
    | 'n' => some ('\n', 1)
    | 'f' => some ('\x0c', 1)
    | 'r' => some ('\r', 1)
    | '"' => some ('"', 1)
    | '\\' => some ('\\', 1)
    | 'u' => (scalar? 4 cs).map fun c => (c, 5)
    | 'U' => (scalar? 8 cs).map fun c => (c, 9)
    | _ => none

/-- How many blanks and line ends stand at the front of a text, and whether a line end is among them. -/
def gap : List Char → Nat × Bool
  | ' ' :: cs => let (n, broken) := gap cs; (n + 1, broken)
  | '\t' :: cs => let (n, broken) := gap cs; (n + 1, broken)
  | '\n' :: cs => ((gap cs).1 + 1, true)
  | '\r' :: '\n' :: cs => ((gap cs).1 + 2, true)
  | _ => (0, false)

/-! ## Reading -/

/-- A character that may stand on a line: the tab and everything that is no control character. -/
def isPlain (c : Char) : Bool := c == '\t' || (' ' ≤ c && c != '\x7f')

/-- One line between double quotes, after the opening one: its text and what follows the closing one. The first
    `skip` characters have been read already. -/
def basic : Nat → List Char → Option (List Char × List Char)
  | _, [] => none
  | skip + 1, _ :: cs => basic skip cs
  | 0, c :: cs =>
    if c = '"' then some ([], cs)
    else if c = '\\' then do
      let (c, n) ← escape? cs
      let (text, rest) ← basic n cs
      return (c :: text, rest)
    else if isPlain c then (basic 0 cs).map fun (text, rest) => (c :: text, rest)
    else none

/-- One line between single quotes, after the opening one. -/
def literal : List Char → Option (List Char × List Char)
  | [] => none
  | c :: cs =>
    if c = apostrophe then some ([], cs)
    else if isPlain c then (literal cs).map fun (text, rest) => (c :: text, rest)
    else none

/-- The end of a string between three quotes: up to two quotes may stand before the closing ones. -/
def closing? (q : Char) (cs : List Char) : Option (List Char × List Char) :=
  let run := (cs.takeWhile (· == q)).length
  if run < 3 then none
  else
    let inside := min (run - 3) 2
    some (List.replicate inside q, cs.drop (inside + 3))

/-- Lines between three double quotes, after the opening ones. The first `skip` characters have been read
    already. -/
def multiBasic : Nat → List Char → Option (List Char × List Char)
  | _, [] => none
  | skip + 1, _ :: cs => multiBasic skip cs
  | 0, c :: cs =>
    if c = '"' then
      (closing? '"' (c :: cs)).or ((multiBasic 0 cs).map fun (text, rest) => (c :: text, rest))
    else if c = '\\' then
      match gap cs with
      | (n, true) => multiBasic n cs
      | _ => do
        let (c, n) ← escape? cs
        let (text, rest) ← multiBasic n cs
        return (c :: text, rest)
    else if isPlain c || c == '\n' then (multiBasic 0 cs).map fun (text, rest) => (c :: text, rest)
    else if c = '\r' ∧ cs.head? = some '\n' then multiBasic 0 cs
    else none

/-- Lines between three single quotes, after the opening ones. -/
def multiLiteral : List Char → Option (List Char × List Char)
  | [] => none
  | c :: cs =>
    if c = apostrophe then
      (closing? apostrophe (c :: cs)).or ((multiLiteral cs).map fun (text, rest) => (c :: text, rest))
    else if isPlain c || c == '\n' then (multiLiteral cs).map fun (text, rest) => (c :: text, rest)
    else if c = '\r' ∧ cs.head? = some '\n' then multiLiteral cs
    else none

/-- A line end right after three opening quotes is no part of the text. -/
def dropNewline : List Char → List Char
  | '\n' :: cs => cs
  | '\r' :: '\n' :: cs => cs
  | cs => cs

/-- A string at the front of a text. -/
def string? (cs : List Char) : Option (List Char × List Char) :=
  if ['"', '"', '"'].isPrefixOf cs then multiBasic 0 (dropNewline (cs.drop 3))
  else if [apostrophe, apostrophe, apostrophe].isPrefixOf cs then multiLiteral (dropNewline (cs.drop 3))
  else
    match cs with
    | c :: cs => if c = '"' then basic 0 cs else if c = apostrophe then literal cs else none
    | [] => none

end LibraryCatalog.Toml
