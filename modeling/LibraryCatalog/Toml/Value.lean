/-!
# `LibraryCatalog.Toml.Value` — documents as trees, and how tables grow

A document defines its tables piece by piece: by headers, by dotted keys, and by whole values. A table remembers
how it came about, because that decides what may still be added to it. Nothing is ever defined twice.

## Contents
- **Types.** `Origin`, `Value`, `Members`.
- **Reaching a table.** `within` follows a path of keys and creates the tables that are missing on it.
- **Growing.** `assign` one key, `addTable` and `addElement` for the two kinds of header.
-/

namespace LibraryCatalog.Toml

/-! ## Types -/

/-- How a table came about. -/
inductive Origin where
  /-- By a header of its own. -/
  | header
  /-- By the header of a table inside it. -/
  | implied
  /-- By a dotted key. -/
  | dotted
  /-- As a whole, between braces. -/
  | inline
deriving Repr, DecidableEq

/-- A value. Of numbers, dates and truth values it is only kept that they are there. -/
inductive Value where
  | string (s : String)
  | scalar
  | array (elements : List Value)
  | table (origin : Origin) (members : List (String × Value))
  /-- The tables of an array that grows by headers. -/
  | tables (elements : List (List (String × Value)))
deriving Repr

/-- The keys of a table with their values; no key occurs twice. -/
abbrev Members := List (String × Value)

/-! ## Reaching a table -/

/-- The members with another value under a key that is there. -/
def replace (ms : Members) (key : String) (v : Value) : Members :=
  ms.map fun (k, w) => if k = key then (k, v) else (k, w)

/-- Changes the table that a path leads to, from a table of the given origin and members on. A missing table on
    the way is created, and of an array of tables the last one is meant. Dotted keys (`dotted`) do not lead into
    tables that have a header; nothing leads into a value that was written as a whole. -/
def within (dotted : Bool) (change : Origin → Members → Option Members) :
    List String → Origin → Members → Option Members
  | [], origin, ms => change origin ms
  | key :: path, _, ms =>
    match ms.lookup key with
    | none => do
      let origin := if dotted then .dotted else .implied
      let inner ← within dotted change path origin []
      return ms ++ [(key, .table origin inner)]
    | some (.table origin inner) =>
      if origin = .inline ∨ (dotted ∧ origin = .header) then none
      else do
        let inner ← within dotted change path origin inner
        return replace ms key (.table origin inner)
    | some (.tables elements) => do
      let inner ← within dotted change path .header (← elements.getLast?)
      return replace ms key (.tables (elements.dropLast ++ [inner]))
    | some _ => none

/-! ## Growing -/

/-- A dotted key with its value: the keys that lead to a table, the key in that table, and the value. -/
structure Assignment where
  path : List String
  key : String
  value : Value
deriving Repr

/-- Adds a value under a dotted key. Only tables that dotted keys have created are reached by them. -/
def assign (ms : Members) (a : Assignment) : Option Members :=
  within true (fun origin ms =>
    if !a.path.isEmpty && origin != .dotted then none
    else
      match ms.lookup a.key with
      | none => some (ms ++ [(a.key, a.value)])
      | some _ => none) a.path .header ms

/-- Adds several values one after the other. -/
def assignAll (ms : Members) (as : List Assignment) : Option Members := as.foldlM assign ms

/-- A header: the keys that lead to a table, the key in that table, and whether the header adds an element to an
    array of tables. -/
structure Header where
  path : List String
  key : String
  isElement : Bool
deriving Repr, DecidableEq

/-- Adds the table under a header. A table that was implied so far may be given its header once. -/
def addTable (root : Members) (path : List String) (key : String) (body : List Assignment) :
    Option Members :=
  within false (fun _ ms =>
    match ms.lookup key with
    | none => (assignAll [] body).map fun inner => ms ++ [(key, .table .header inner)]
    | some (.table .implied inner) =>
      (assignAll inner body).map fun inner => replace ms key (.table .header inner)
    | some _ => none) path .header root

/-- Adds the next element of an array of tables. -/
def addElement (root : Members) (path : List String) (key : String) (body : List Assignment) :
    Option Members :=
  within false (fun _ ms =>
    match ms.lookup key with
    | none => (assignAll [] body).map fun inner => ms ++ [(key, .tables [inner])]
    | some (.tables elements) =>
      (assignAll [] body).map fun inner => replace ms key (.tables (elements ++ [inner]))
    | some _ => none) path .header root

/-- A header and the assignments below it. -/
structure Section where
  header : Header
  body : List Assignment
deriving Repr

/-- Adds what stands below a header. -/
def addSection (root : Members) (s : Section) : Option Members :=
  if s.header.isElement then addElement root s.header.path s.header.key s.body
  else addTable root s.header.path s.header.key s.body

end LibraryCatalog.Toml
