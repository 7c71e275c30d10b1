import LibraryCatalog.Json.Value

/-!
# `LibraryCatalog.Json.Printer` — trees as text

A document is written without any blanks, or spread over lines with two blanks for each level. An array or object
without content takes no lines either way.

## Contents
- **Layouts.** `Layout`, and what it puts before a line and after a key.
- **Documents.** `render`.
-/

namespace LibraryCatalog.Json

/-! ## Layouts -/

/-- How a document is spread over lines. -/
inductive Layout where
  /-- Everything on one line, without blanks. -/
  | compact
  /-- Every element and member on a line of its own. -/
  | pretty
deriving Repr, DecidableEq

/-- What starts a line at a level. -/
def Layout.newline : Layout → Nat → List Char
  | .compact, _ => []
  | .pretty, depth => '\n' :: List.replicate (2 * depth) ' '

/-- What stands between a key and its value. -/
def Layout.colon : Layout → List Char
  | .compact => [':']
  | .pretty => [':', ' ']

/-! ## Documents -/

mutual

/-- The text of a value that stands at a level. -/
def renderAt (layout : Layout) (depth : Nat) : Json → List Char
  | .null => ['n', 'u', 'l', 'l']
  | .bool true => ['t', 'r', 'u', 'e']
  | .bool false => ['f', 'a', 'l', 's', 'e']
  | .number literal => literal
  | .string ps => quote ps
  | .array [] => ['[', ']']
  | .array (j :: js) =>
    '[' :: layout.newline (depth + 1) ++ renderAt layout (depth + 1) j ++
      renderElements layout (depth + 1) js ++ layout.newline depth ++ [']']
  | .object [] => ['{', '}']
  | .object ((key, j) :: ms) =>
    '{' :: layout.newline (depth + 1) ++ quote key ++ layout.colon ++ renderAt layout (depth + 1) j ++
      renderMembers layout (depth + 1) ms ++ layout.newline depth ++ ['}']

/-- The elements of an array after the first. -/
def renderElements (layout : Layout) (depth : Nat) : List Json → List Char
  | [] => []
  | j :: js => ',' :: layout.newline depth ++ renderAt layout depth j ++ renderElements layout depth js

/-- The members of an object after the first. -/
def renderMembers (layout : Layout) (depth : Nat) : List (List Piece × Json) → List Char
  | [] => []
  | (key, j) :: ms =>
    ',' :: layout.newline depth ++ quote key ++ layout.colon ++ renderAt layout depth j ++
      renderMembers layout depth ms

end

/-- The text of a document. -/
def render (layout : Layout) (j : Json) : String := String.ofList (renderAt layout 0 j)

end LibraryCatalog.Json
