import LibraryCatalog.Json.Value

/-!
# `LibraryCatalog.Json.Struct` — records of named fields in JSON

A record is an object whose members are its fields. Members of other names are passed over, whatever their values;
a field that stands twice is refused. A record may also be an array of its fields in their declared order, where
fields at the end may be missing but no element may be too many.

## Contents
- **Fields.** `fieldValues?`, the value that a record gives each field, if it gives one.
- **Values.** `optional?`, `elements?`, `texts?`.
-/

namespace LibraryCatalog.Json

/-! ## Fields -/

/-- The only value that stands under a name: no value if there is none, a failure if there are several. -/
def onlyValue? (members : List (String × Json)) (name : String) : Option (Option Json) :=
  match members.filter fun (key, _) => key == name with
  | [] => some none
  | [(_, j)] => some (some j)
  | _ => none

/-- A member whose key is a text. -/
def namedMember? (member : List Piece × Json) : Option (String × Json) :=
  (assemble member.1).map fun key => (String.ofList key, member.2)

/-- For each of the names of a record's fields the value that is given to it. -/
def fieldValues? (names : List String) : Json → Option (List (Option Json))
  | .array js =>
    if js.length ≤ names.length then
      some (js.map some ++ List.replicate (names.length - js.length) none)
    else none
  | .object members => do names.mapM (onlyValue? (← members.mapM namedMember?))
  | _ => none

/-! ## Values -/

/-- The value of a field that may be missing or null. -/
def optional? (decode : Json → Option α) : Option Json → Option (Option α)
  | none => some none
  | some .null => some none
  | some j => (decode j).map some

/-- The elements of an array. -/
def elements? : Json → Option (List Json)
  | .array js => some js
  | _ => none

/-- The texts of an array of strings. -/
def texts? (j : Json) : Option (List String) := do (← j.elements?).mapM text?

end LibraryCatalog.Json
