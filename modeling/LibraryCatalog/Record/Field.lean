/-!
# `LibraryCatalog.Record.Field` — which keys a record understands

A kind of record publishes a table of fields. A field has a name, at most one alternate key, and a setter whose
kind says how the text of a value is understood.

## Contents
- **Rows.** `Setter`, `Field`, `Field.accepts`.
- **Look-up.** `resolve`: names first, in table order, then alternate keys; upper and lower case differ.
- **Formats.** `Format`, a marker, a table and the record to start from.
-/

namespace LibraryCatalog.Record

/-! ## Rows -/

/-- How a value changes a record of type `ρ`. -/
inductive Setter (ρ : Type) where
  /-- The text replaces an earlier one. -/
  | text (assign : String → ρ → ρ)
  /-- The text is read as a whole number, which replaces an earlier one. -/
  | integer (assign : Int32 → ρ → ρ)
  /-- The text is added to a list. -/
  | list (append : String → ρ → ρ)

/-- One row of a table of fields. -/
structure Field (ρ : Type) where
  /-- The key under which the field is documented. -/
  name : String
  /-- A second key for the same field. -/
  alternate : Option String
  setter : Setter ρ

variable {ρ : Type}

/-- Whether a key belongs to a field, as its name or as its alternate key. -/
def Field.accepts (f : Field ρ) (key : String) : Bool :=
  f.name == key || f.alternate == some key

/-! ## Look-up -/

/-- The field that a key stands for: the first one of that name, or else the first one with that alternate
    key. -/
def resolve (fields : List (Field ρ)) (key : String) : Option (Field ρ) :=
  (fields.find? fun f => f.name == key).or (fields.find? fun f => f.alternate == some key)

/-- The field found accepts the key. -/
theorem accepts_of_resolve {fields : List (Field ρ)} {key : String} {f : Field ρ}
    (h : resolve fields key = some f) : f.accepts key = true := by
  rw [resolve, Option.or_eq_some_iff] at h
  rw [Field.accepts, Bool.or_eq_true]
  rcases h with h | ⟨_, h⟩
  · exact .inl (List.find?_some (p := fun f : Field ρ => f.name == key) h)
  · exact .inr (List.find?_some (p := fun f : Field ρ => f.alternate == some key) h)

/-! ## Formats -/

/-- A kind of record. -/
structure Format (ρ : Type) where
  /-- What a line starts with that opens a new record. -/
  marker : String
  fields : List (Field ρ)
  /-- A record to which no line has been applied. -/
  blank : ρ

end LibraryCatalog.Record
