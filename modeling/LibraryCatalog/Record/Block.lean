import LibraryCatalog.Record.Error
import LibraryCatalog.Record.Field
import LibraryCatalog.Text.Blank
import LibraryCatalog.Text.Occurrence

/-!
# `LibraryCatalog.Record.Block` — reading a text as a list of records

A text is a block of lines. A line that starts with the marker opens a record; blank lines are passed over; every
other line is `key: value`, divided at its first colon, and changes the open record. The first line that cannot
be understood is reported, and nothing is kept then.

## Contents
- **One line.** `Format.opens`, `Format.applyLine`, and `Format.step` for a line that may stand outside a record.
- **A block.** `Format.readLines` with the open record and the line number, `Format.read` for a whole text.
-/

namespace LibraryCatalog.Record

open Text

variable {ρ : Type}

/-! ## One line -/

/-- Whether a line opens a record. -/
def Format.opens (f : Format ρ) (line : List Char) : Bool := f.marker.toList.isPrefixOf line

/-- The effect of a setter, given the key and the value as they were written. -/
def Setter.apply (s : Setter ρ) (key : String) (value : List Char) (r : ρ) : Except Offence ρ :=
  match s with
  | .text assign => .ok (assign (String.ofList value) r)
  | .list append => .ok (append (String.ofList value) r)
  | .integer assign =>
    match int32? value with
    | some n => .ok (assign n r)
    | none => .error (.invalidInteger key (String.ofList value))

/-- The effect of a `key: value` line on an open record. -/
def Format.applyLine (f : Format ρ) (line : List Char) (r : ρ) : Except Offence ρ :=
  match cut ':' line with
  | none => .error .missingDelimiter
  | some (key, value) =>
    let key := String.ofList (trim key)
    match resolve f.fields key with
    | none => .error (.unknownKey key)
    | some field => field.setter.apply key (trim value) r

/-- The effect of a line that neither opens a record nor is blank. -/
def Format.step (f : Format ρ) (line : List Char) : Option ρ → Except Offence ρ
  | none => .error (.missingMarker f.marker)
  | some r => f.applyLine line r

/-! ## A block -/

/-- Reads the lines from number `n` on, with `current` the record that is open before them. -/
def Format.readLines (f : Format ρ) (n : Nat) (current : Option ρ) :
    List (List Char) → Except FormatError (List ρ)
  | [] => .ok current.toList
  | line :: lines =>
    if f.opens line then
      (f.readLines (n + 1) (some f.blank) lines).map (current.toList ++ ·)
    else if isBlankLine line then
      f.readLines (n + 1) current lines
    else
      match f.step line current with
      | .ok r => f.readLines (n + 1) (some r) lines
      | .error offence => .error ⟨n, offence⟩

/-- The records of a text, or its first offence. -/
def Format.read (f : Format ρ) (text : String) : Except FormatError (List ρ) :=
  f.readLines 1 none (text.toList.splitOn '\n')

end LibraryCatalog.Record
