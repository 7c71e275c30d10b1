import LibraryCatalog.Text.Hex

/-!
# `LibraryCatalog.Toml.Scalar` — numbers, dates and truth values

A catalog asks for none of these, but a document has to be free of faults in all its parts. Each reader gives back
what follows the scalar.

## Contents
- **Digits.** `digitRun`, where an underscore may stand between two digits; `decimal?` with a sign.
- **Numbers.** `integer?` of 64 bits, `float?` within the range of the double format.
- **Dates and times.** `date?`, `time?`, `offset?`, and their combinations in `dateTime?`.
- **Any scalar.** `scalar?`.
-/

namespace LibraryCatalog.Toml.Scalar

open Text

/-! ## Digits -/

/-- The digits at the front of a text, without the underscores between them, and the rest. -/
def digitRun (isDigit : Char → Bool) : List Char → List Char × List Char
  | '_' :: c :: cs =>
    if isDigit c then
      let (ds, rest) := digitRun isDigit cs
      (c :: ds, rest)
    else ([], '_' :: c :: cs)
  | c :: cs =>
    if isDigit c then
      let (ds, rest) := digitRun isDigit cs
      (c :: ds, rest)
    else ([], c :: cs)
  | [] => ([], [])

/-- One or more digits. -/
def digits? (isDigit : Char → Bool) : List Char → Option (List Char × List Char)
  | c :: cs => if isDigit c then some (digitRun isDigit (c :: cs)) else none
  | [] => none

/-- The sign at the front of a number: whether it is negative, and the rest. -/
def sign : List Char → Bool × List Char
  | '-' :: cs => (true, cs)
  | '+' :: cs => (false, cs)
  | cs => (false, cs)

/-- A whole number in base ten without leading zeros: whether it is negative, its digits, and the rest. -/
def decimal? (cs : List Char) : Option (Bool × List Char × List Char) :=
  let (negative, cs) := sign cs
  match cs with
  | '0' :: rest => some (negative, ['0'], rest)
  | cs => (digits? Char.isDigit cs).map fun (ds, rest) => (negative, ds, rest)

/-! ## Numbers -/

/-- The value of digits in a base. -/
def valueOf (base : Nat) (ds : List Char) : Nat :=
  ds.foldl (fun n c => base * n + (hexDigit? c).getD 0) 0

/-- Where the positive integers of 64 bits end; the negative ones include it. -/
def integerLimit : Nat := 9223372036854775808

/-- A whole number in one of the bases that a letter announces, without a sign. -/
def based? (base : Nat) (cs : List Char) : Option (List Char) := do
  let (ds, rest) ← digits? (fun c => (hexDigit? c).any (· < base)) cs
  if valueOf base ds < integerLimit then some rest else none

/-- An integer of 64 bits. -/
def integer? : List Char → Option (List Char)
  | '0' :: 'x' :: cs => based? 16 cs
  | '0' :: 'o' :: cs => based? 8 cs
  | '0' :: 'b' :: cs => based? 2 cs
  | cs => do
    let (negative, ds, rest) ← decimal? cs
    let n := valueOf 10 ds
    if n < integerLimit ∨ (negative ∧ n = integerLimit) then some rest else none

/-- Where the double format ends: from here on numbers are rounded to infinity. -/
def overflow : Nat := Nat.pow 2 1024 - Nat.pow 2 970

/-- Whether `n * 10 ^ e` is rounded to infinity. The number of digits settles it far from the border. -/
def overflows (n : Nat) (e : Int) : Bool :=
  let size := (Nat.toDigits 10 n).length + e
  if n = 0 ∨ size < 300 then false
  else if 310 < size then true
  else if 0 ≤ e then overflow ≤ n * Nat.pow 10 e.toNat
  else overflow * Nat.pow 10 (-e).toNat ≤ n

/-- An exponent with its letter. -/
def exponent? : List Char → Option (Int × List Char)
  | c :: cs =>
    if c = 'e' ∨ c = 'E' then
      let (negative, cs) := sign cs
      (digits? Char.isDigit cs).map fun (ds, rest) =>
        (if negative then -(valueOf 10 ds : Int) else valueOf 10 ds, rest)
    else none
  | [] => none

/-- A number with a fraction, an exponent or both, which must not exceed the double format on the positive
    side. -/
def float? (cs : List Char) : Option (List Char) := do
  let (negative, whole, cs) ← decimal? cs
  let (fraction, e, rest) ← (
    match cs with
    | '.' :: cs => do
      let (fraction, cs) ← digits? Char.isDigit cs
      let (e, rest) := (exponent? cs).getD (0, cs)
      return (fraction, e, rest)
    | cs => (exponent? cs).map fun (e, rest) => ([], e, rest))
  if !negative && overflows (valueOf 10 (whole ++ fraction)) (e - fraction.length) then none else some rest

/-- Infinity or no number, with an optional sign. -/
def special? (cs : List Char) : Option (List Char) :=
  match (sign cs).2 with
  | 'i' :: 'n' :: 'f' :: rest => some rest
  | 'n' :: 'a' :: 'n' :: rest => some rest
  | _ => none

/-! ## Dates and times -/

/-- A number of exactly so many digits. -/
def fixed? (count : Nat) (cs : List Char) : Option (Nat × List Char) :=
  let ds := cs.take count
  if ds.length = count ∧ ds.all Char.isDigit then some (valueOf 10 ds, cs.drop count) else none

/-- A number of two digits that lies in a range. -/
def two? (lo hi : Nat) (cs : List Char) : Option (Nat × List Char) :=
  (fixed? 2 cs).filter fun (n, _) => lo ≤ n && n ≤ hi

/-- The character that has to come next. -/
def expect? (c : Char) : List Char → Option (List Char)
  | d :: cs => if d = c then some cs else none
  | [] => none

/-- The number of days of a month. -/
def daysIn (year month : Nat) : Nat :=
  if month = 2 then
    if year % 4 = 0 ∧ (year % 100 ≠ 0 ∨ year % 400 = 0) then 29 else 28
  else if month ∈ [4, 6, 9, 11] then 30
  else 31

/-- A day of the calendar. -/
def date? (cs : List Char) : Option (List Char) := do
  let (year, cs) ← fixed? 4 cs
  let (month, cs) ← two? 1 12 (← expect? '-' cs)
  let (_, rest) ← two? 1 (daysIn year month) (← expect? '-' cs)
  return rest

/-- A time of day, to the second or finer; a minute may have a leap second. -/
def time? (cs : List Char) : Option (List Char) := do
  let (_, cs) ← two? 0 23 cs
  let (_, cs) ← two? 0 59 (← expect? ':' cs)
  let (_, cs) ← two? 0 60 (← expect? ':' cs)
  match cs with
  | '.' :: c :: rest => return if c.isDigit then rest.dropWhile Char.isDigit else cs
  | _ => return cs

/-- The distance from universal time, if one is given. -/
def offset? : List Char → Option (List Char)
  | c :: cs =>
    if c = 'Z' ∨ c = 'z' then some cs
    else if c = '+' ∨ c = '-' then do
      let (_, cs) ← two? 0 23 cs
      let (_, rest) ← two? 0 59 (← expect? ':' cs)
      return rest
    else none
  | [] => none

/-- A date, perhaps with a time and then perhaps with an offset, or a time alone. -/
def dateTime? (cs : List Char) : Option (List Char) :=
  match date? cs with
  | none => time? cs
  | some rest =>
    match rest with
    | c :: cs =>
      if c = 'T' ∨ c = 't' ∨ c = ' ' then
        match time? cs with
        | some rest => some ((offset? rest).getD rest)
        | none => some rest
      else some rest
    | [] => some []

/-! ## Any scalar -/

/-- A scalar at the front of a text. -/
def scalar? : List Char → Option (List Char)
  | 't' :: 'r' :: 'u' :: 'e' :: rest => some rest
  | 'f' :: 'a' :: 'l' :: 's' :: 'e' :: rest => some rest
  | cs => (dateTime? cs).or ((float? cs).or ((special? cs).or (integer? cs)))

end LibraryCatalog.Toml.Scalar
