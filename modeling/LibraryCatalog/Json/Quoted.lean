import LibraryCatalog.Text.Hex

/-!
# `LibraryCatalog.Json.Quoted` — strings between quotes

A string is a row of pieces. A piece is a character, or one half of a surrogate pair, which only an escape can
bring into a string. The pieces are a text if every half finds its other half next to it.

## Contents
- **Pieces.** `Piece`, `assemble` for the text of some pieces.
- **Writing.** `escape`: the quote, the backslash and the control characters below U+0020, and nothing else.
- **Reading.** `pieces`, up to the closing quote; any character may be escaped there.

A row of characters is its own text: `assemble_map_char`.
-/

namespace LibraryCatalog.Json

open Text

/-! ## Pieces -/

/-- What one character or escape of a string stands for. -/
inductive Piece where
  | char (c : Char)
  /-- One half of a surrogate pair. -/
  | surrogate (n : Nat)
deriving Repr, DecidableEq

/-- The first half of a surrogate pair. -/
def isHigh (n : Nat) : Bool := 0xD800 ≤ n && n ≤ 0xDBFF

/-- The second half of a surrogate pair. -/
def isLow (n : Nat) : Bool := 0xDC00 ≤ n && n ≤ 0xDFFF

/-- The piece of a 16-bit number. -/
def Piece.ofCode (n : Nat) : Piece :=
  if isHigh n || isLow n then .surrogate n else .char (Char.ofNat n)

/-- The text of some pieces, if every surrogate is half of a pair. -/
def assemble : List Piece → Option (List Char)
  | [] => some []
  | .char c :: ps => (assemble ps).map (c :: ·)
  | .surrogate n :: .surrogate m :: ps =>
    if isHigh n && isLow m then
      (assemble ps).map (Char.ofNat (0x10000 + (n - 0xD800) * 0x400 + (m - 0xDC00)) :: ·)
    else none
  | .surrogate _ :: _ => none

@[simp] theorem assemble_map_char (cs : List Char) : assemble (cs.map .char) = some cs := by
  induction cs with
  | nil => rfl
  | cons c cs ih => simp [assemble, ih]

/-! ## Writing -/

/-- How one piece is written between quotes. -/
def Piece.escape : Piece → List Char
  | .surrogate n => '\\' :: 'u' :: hex4 n
  | .char c =>
    if c = '"' then ['\\', '"']
    else if c = '\\' then ['\\', '\\']
    else if c = '\x08' then ['\\', 'b']
    else if c = '\t' then ['\\', 't']
    else if c = '\n' then ['\\', 'n']
    else if c = '\x0c' then ['\\', 'f']
    else if c = '\r' then ['\\', 'r']
    else if c < ' ' then '\\' :: 'u' :: hex4 c.toNat
    else [c]

/-- A string with its quotes. -/
def quote (ps : List Piece) : List Char := '"' :: ps.flatMap Piece.escape ++ ['"']

/-! ## Reading -/

/-- The character of an escape of one letter. -/
def escaped? (c : Char) : Option Char :=
  match c with
  | '"' => some '"'
  | '\\' => some '\\'
  | '/' => some '/'
  | 'b' => some '\x08'
  | 'f' => some '\x0c'
  | 'n' => some '\n'
  | 'r' => some '\r'
  | 't' => some '\t'
  | _ => none

/-- The pieces of a string after its opening quote, and what follows the closing one. -/
def pieces : List Char → Option (List Piece × List Char)
  | [] => none
  | '"' :: cs => some ([], cs)
  | '\\' :: 'u' :: a :: b :: c :: d :: cs => do
    let n ← hex? [a, b, c, d]
    let (ps, rest) ← pieces cs
    return (.ofCode n :: ps, rest)
  | '\\' :: e :: cs => do
    let c ← escaped? e
    let (ps, rest) ← pieces cs
    return (.char c :: ps, rest)
  | c :: cs =>
    if c < ' ' then none
    else do
      let (ps, rest) ← pieces cs
      return (.char c :: ps, rest)

end LibraryCatalog.Json
