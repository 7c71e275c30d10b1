import LibraryCatalog.Json.Quoted
import LibraryCatalog.Text.Decimal

/-!
# `LibraryCatalog.Json.Value` — JSON documents as trees

A tree keeps a document as it is written, blanks and the spelling of escapes apart: numbers as their literals,
strings as their pieces, members in their order and with repetitions. What a literal or a string stands for is
asked of the tree afterwards, so that a value that nobody asks for may be anything.

## Contents
- **Type.** `Json`.
- **Scalars.** `ofText` and `ofInt` make trees of values, `text?` and `integer?` read them off; `member` names a
  value.
-/

namespace LibraryCatalog

open Text

/-- A JSON value. -/
inductive Json where
  | null
  | bool (b : Bool)
  | number (literal : List Char)
  | string (pieces : List Json.Piece)
  | array (elements : List Json)
  | object (members : List (List Json.Piece × Json))
deriving Repr

namespace Json

/-! ## Scalars -/

/-- The string of a text. -/
def ofText (s : String) : Json := .string (s.toList.map .char)

/-- A member of an object, with a text as its key. -/
def member (key : String) (j : Json) : List Piece × Json := (key.toList.map .char, j)

/-- The text of a string, if it is one. -/
def text? : Json → Option String
  | .string ps => (assemble ps).map String.ofList
  | _ => none

/-- The number of an integer. -/
def ofInt (n : Int) : Json := .number (showInt n)

/-- The value of a literal that is written as an integer. A negative zero is not one. -/
def literalInteger? : List Char → Option Int
  | '-' :: ds => ((digits? ds).filter (0 < ·)).map fun n => -(n : Int)
  | ds => (digits? ds).map Int.ofNat

/-- The value of a number that is written as an integer. -/
def integer? : Json → Option Int
  | .number literal => literalInteger? literal
  | _ => none

@[simp] theorem text?_ofText (s : String) : (ofText s).text? = some s := by
  simp [ofText, text?]

@[simp] theorem integer?_ofInt (n : Int) : (ofInt n).integer? = some n := by
  cases n with
  | ofNat n =>
    obtain ⟨c, cs, h⟩ := List.exists_cons_of_ne_nil (showNat_ne_nil n)
    have hc : c.isDigit = true := isDigit_of_mem_showNat (n := n) (by simp [h])
    have hdigits : (digits? (c :: cs)) = some n := by rw [← h, digits?_showNat]
    simp only [ofInt, integer?, showInt, h, literalInteger?]
    split
    · next heq => cases heq; simp [Char.isDigit] at hc
    · simp [hdigits]
  | negSucc n =>
    have hpos : (decide (0 < n + 1)) = true := by simp
    rw [ofInt, integer?, showInt, literalInteger?, digits?_showNat, Option.filter_some, if_pos hpos]
    rfl

end Json

end LibraryCatalog
