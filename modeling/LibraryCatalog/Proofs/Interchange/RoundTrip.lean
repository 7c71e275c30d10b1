import LibraryCatalog.Interchange
import LibraryCatalog.Proofs.Json.Printing
import LibraryCatalog.Proofs.Location.Numbers

/-!
# `LibraryCatalog.Proofs.Interchange.RoundTrip` — what is written as JSON is read back

A type with a writer and a reader of trees is lawful on its valid values if the reader undoes the writer on these,
refuses what is written for any other value, and never gives an invalid one. All data of a catalog is lawful: books
and identifiers on all values, places and configurations on those of positive locations.

## Contents
- **Codecs.** `Codec.LawfulOn`, and what it says about texts: `read?_write`, `stable`.
- **Fields.** `fieldValues?_object`, the values of a record of distinct names.
- **Data.** A `codec` and its `lawfulOn` for identifiers, locations, books, record files and configurations.
- **Texts.** `interchange_round_trips`.
-/

namespace LibraryCatalog

open Text

namespace Json

/-! ## Codecs -/

/-- How the values of a type are written as trees and read back. -/
structure Codec (α : Type) where
  toJson : α → Json
  ofJson? : Json → Option α

namespace Codec

variable {α : Type} (codec : Codec α)

/-- The text of a value. -/
def write (layout : Layout) (a : α) : String := render layout (codec.toJson a)

/-- The value that a text gives. -/
def read? (text : String) : Option α := (Json.read? text).bind codec.ofJson?

/-- Trees of valid values are read back, and trees of other values are not; only valid values are read. -/
structure LawfulOn (valid : α → Prop) [DecidablePred valid] : Prop where
  sound : ∀ a, (codec.toJson a).Sound
  ofJson?_toJson : ∀ a, codec.ofJson? (codec.toJson a) = if valid a then some a else none
  valid_of_ofJson? : ∀ {j a}, codec.ofJson? j = some a → valid a

/-- Whatever value a text gives, writing it and reading that gives the same value. -/
def Stable (layout : Layout) : Prop :=
  ∀ text, ((codec.read? text).bind fun a => codec.read? (codec.write layout a)) = codec.read? text

variable {codec} {valid : α → Prop} [DecidablePred valid]

/-- **What is written is read back** if it is valid. -/
theorem LawfulOn.read?_write (h : codec.LawfulOn valid) (layout : Layout) (a : α) :
    codec.read? (codec.write layout a) = if valid a then some a else none := by
  rw [read?, write, read?_render layout (h.sound a), Option.bind_some, h.ofJson?_toJson]

/-- **What is read survives** being written and read again. -/
theorem LawfulOn.stable (h : codec.LawfulOn valid) (layout : Layout) : codec.Stable layout := by
  intro text
  cases hread : codec.read? text with
  | none => rfl
  | some a =>
    obtain ⟨j, -, hj⟩ := Option.bind_eq_some_iff.mp hread
    rw [Option.bind_some, h.read?_write, if_pos (h.valid_of_ofJson? hj)]

end Codec

/-! ## Fields -/

theorem mapM_namedMember? (ms : List (String × Json)) :
    (ms.map fun m => member m.1 m.2).mapM namedMember? = some ms := by
  induction ms with
  | nil => rfl
  | cons m ms ih =>
    have hm : namedMember? (member m.1 m.2) = some m := by simp [namedMember?, member]
    rw [List.map_cons, List.mapM_cons, hm, ih]
    rfl

/-- The members of an object with texts as keys are found under these texts. -/
theorem fieldValues?_object (names : List String) (ms : List (String × Json)) :
    (Json.object (ms.map fun m => member m.1 m.2)).fieldValues? names = names.mapM (onlyValue? ms) := by
  rw [fieldValues?, mapM_namedMember?]
  rfl

/-- A list is read element by element, the first one first. -/
theorem mapM_cons_eq_some_iff {α β : Type} {decode : β → Option α} {j : β} {js : List β} {as : List α} :
    (j :: js).mapM decode = some as ↔ ∃ a rest, decode j = some a ∧ js.mapM decode = some rest ∧ as = a :: rest := by
  simp only [List.mapM_cons, Option.bind_eq_bind, Option.bind_eq_some_iff, Option.pure_def, Option.some.injEq]
  constructor
  · rintro ⟨a, ha, rest, hrest, rfl⟩
    exact ⟨a, rest, ha, hrest, rfl⟩
  · rintro ⟨a, rest, ha, hrest, rfl⟩
    exact ⟨a, ha, rest, hrest, rfl⟩

/-- What a reader of elements gives for an array, it gives for its elements. -/
theorem forall_of_mapM {α β : Type} {decode : β → Option α} {P : α → Prop} (h : ∀ {j a}, decode j = some a → P a)
    {js : List β} {as : List α} (has : js.mapM decode = some as) : ∀ a ∈ as, P a := by
  induction js generalizing as with
  | nil =>
    obtain rfl := Option.some.inj has
    exact nofun
  | cons j js ih =>
    obtain ⟨a, rest, ha, hrest, rfl⟩ := mapM_cons_eq_some_iff.mp has
    exact List.forall_mem_cons.mpr ⟨h ha, ih hrest⟩

/-- What is written for the elements of a list is read element by element. -/
theorem mapM_map_of_read {α : Type} {encode : α → Json} {decode : Json → Option α}
    (h : ∀ a, decode (encode a) = some a) (as : List α) : (as.map encode).mapM decode = some as := by
  induction as with
  | nil => rfl
  | cons a as ih =>
    rw [List.map_cons, List.mapM_cons, h, ih]
    rfl

theorem texts?_ofTexts (texts : List String) : (Json.array (texts.map ofText)).texts? = some texts := by
  rw [texts?, elements?]
  exact mapM_map_of_read text?_ofText texts

theorem sound_array {α : Type} {encode : α → Json} (h : ∀ a, (encode a).Sound) (as : List α) :
    (Json.array (as.map encode)).Sound := by
  refine .array fun j hj => ?_
  obtain ⟨a, -, rfl⟩ := List.mem_map.mp hj
  exact h a

end Json

open Json

/-! ## Data -/

namespace Identifier

variable {e : Entity}

/-- The number of an identifier as a tree. -/
def codec : Codec (Identifier e) := ⟨toJson, ofJson?⟩

theorem lawfulOn : (codec : Codec (Identifier e)).LawfulOn fun _ => True where
  sound i := sound_ofInt i.val.toNat
  ofJson?_toJson i := by rw [if_pos trivial]; exact ofJson?_toJson i
  valid_of_ofJson? _ := trivial

end Identifier

namespace Location

/-- The written form of a location as a tree. -/
def codec : Codec Location := ⟨toJson, ofJson?⟩

theorem ofJson?_toJson (l : Location) : ofJson? l.toJson = if l.Positive then some l else none := by
  rw [toJson, ofJson?, text?_ofText, ← ofChars?_chars, text]
  exact congrArg ofChars? String.toList_ofList

theorem positive_of_ofJson? {j : Json} {l : Location} (h : ofJson? j = some l) : l.Positive := by
  obtain ⟨s, -, hs⟩ := Option.bind_eq_some_iff.mp h
  exact positive_of_ofChars? hs

theorem lawfulOn : codec.LawfulOn Positive where
  sound l := sound_ofText l.text
  ofJson?_toJson := ofJson?_toJson
  valid_of_ofJson? := positive_of_ofJson?

end Location

namespace Book

/-- The fields of a book as a tree. -/
def codec : Codec Book := ⟨toJson, ofJson?⟩

/-- The fields of a book that are written, with their values. -/
def members (b : Book) : List (String × Json) :=
  [("isbn", .ofText b.isbn), ("title", .ofText b.title), ("authors", .array (b.authors.map .ofText)),
    ("publisher", .ofText b.publisher), ("publication_year", .ofInt b.publicationYear.toInt),
    ("number_of_pages", .ofInt b.numberOfPages.toInt)] ++
  b.shelf.toList.map fun id => ("shelf_id", id.toJson)

theorem toJson_eq (b : Book) : b.toJson = .object (b.members.map fun m => member m.1 m.2) := by
  simp only [toJson, members, List.map_append, List.map_cons, List.map_nil, List.map_map]
  rfl

theorem fieldValues?_toJson (b : Book) :
    b.toJson.fieldValues? fieldNames = some [some (.ofText b.isbn), some (.ofText b.title),
      some (.array (b.authors.map .ofText)), some (.ofText b.publisher), some (.ofInt b.publicationYear.toInt),
      some (.ofInt b.numberOfPages.toInt), b.shelf.map Identifier.toJson] := by
  rw [toJson_eq, fieldValues?_object]
  cases hshelf : b.shelf with
  | none => simp [fieldNames, members, hshelf, onlyValue?]
  | some id => simp [fieldNames, members, hshelf, onlyValue?]

theorem int32OfJson?_ofInt (n : Int32) : int32OfJson? (.ofInt n.toInt) = some n := by
  rw [int32OfJson?, integer?_ofInt]
  exact int32OfInt?_toInt n

theorem optional?_toJson (shelf : Option ShelfId) :
    Json.optional? Identifier.ofJson? (shelf.map Identifier.toJson) = some shelf := by
  cases shelf with
  | none => rfl
  | some id =>
    have hid := congrArg (Option.map some) id.ofJson?_toJson
    exact hid

theorem ofJson?_toJson (b : Book) : ofJson? b.toJson = some b := by
  simp only [ofJson?, fieldValues?_toJson, Option.bind_eq_bind, Option.bind_some, text?_ofText, texts?_ofTexts,
    int32OfJson?_ofInt, optional?_toJson, Option.pure_def]

theorem sound_toJson (b : Book) : b.toJson.Sound := by
  rw [toJson_eq]
  refine sound_members fun m hm => ?_
  simp only [members, List.mem_append, List.mem_cons, List.not_mem_nil, or_false, List.mem_map] at hm
  rcases hm with (rfl | rfl | rfl | rfl | rfl | rfl) | ⟨id, -, rfl⟩
  · exact sound_ofText b.isbn
  · exact sound_ofText b.title
  · exact sound_array sound_ofText b.authors
  · exact sound_ofText b.publisher
  · exact sound_ofInt b.publicationYear.toInt
  · exact sound_ofInt b.numberOfPages.toInt
  · exact sound_ofInt id.val.toNat

theorem lawfulOn : codec.LawfulOn fun _ => True where
  sound := sound_toJson
  ofJson?_toJson b := by rw [if_pos trivial]; exact ofJson?_toJson b
  valid_of_ofJson? _ := trivial

end Book

namespace ShelfSource

/-- The fields of a record file, with their values. -/
def members (s : ShelfSource) : List (String × Json) :=
  [("location", s.location.toJson), ("file", .ofText s.file)]

theorem toJson_eq (s : ShelfSource) : s.toJson = .object (s.members.map fun m => member m.1 m.2) := rfl

theorem sound_toJson (s : ShelfSource) : s.toJson.Sound := by
  rw [toJson_eq]
  refine sound_members fun m hm => ?_
  rcases List.mem_cons.mp hm with rfl | hm
  · exact sound_ofText s.location.text
  · obtain rfl := List.mem_singleton.mp hm
    exact sound_ofText s.file

theorem ofJson?_toJson (s : ShelfSource) : ofJson? s.toJson = if s.location.Positive then some s else none := by
  have hfields : s.toJson.fieldValues? fieldNames = some [some s.location.toJson, some (.ofText s.file)] := by
    rw [toJson_eq, fieldValues?_object]
    simp [fieldNames, members, onlyValue?]
  simp only [ofJson?, hfields, Option.bind_eq_bind, Option.bind_some, Location.ofJson?_toJson, text?_ofText,
    Option.pure_def]
  split <;> rfl

theorem positive_of_ofJson? {j : Json} {s : ShelfSource} (h : ofJson? j = some s) : s.location.Positive := by
  obtain ⟨vs, -, h⟩ := Option.bind_eq_some_iff.mp h
  split at h
  · simp only [Option.bind_eq_bind, Option.bind_eq_some_iff, Option.pure_def, Option.some.injEq] at h
    obtain ⟨_, -, l, hl, _, -, _, -, rfl⟩ := h
    exact Location.positive_of_ofJson? hl
  · cases h

end ShelfSource

namespace Configuration

/-- The fields of a configuration as a tree. -/
def codec : Codec Configuration := ⟨toJson, ofJson?⟩

/-- The fields of a configuration that are written, with their values. -/
def members (c : Configuration) : List (String × Json) :=
  (c.logFilter.toList.map fun f => ("log_filter", .ofText f)) ++
    [("shelves", .array (c.shelves.map ShelfSource.toJson))]

theorem toJson_eq (c : Configuration) : c.toJson = .object (c.members.map fun m => member m.1 m.2) := by
  simp only [toJson, members, List.map_append, List.map_cons, List.map_nil, List.map_map]
  rfl

theorem fieldValues?_toJson (c : Configuration) :
    c.toJson.fieldValues? fieldNames =
      some [c.logFilter.map .ofText, some (.array (c.shelves.map ShelfSource.toJson))] := by
  rw [toJson_eq, fieldValues?_object]
  cases hfilter : c.logFilter with
  | none => simp [fieldNames, members, hfilter, onlyValue?]
  | some f => simp [fieldNames, members, hfilter, onlyValue?]

theorem sound_toJson (c : Configuration) : c.toJson.Sound := by
  rw [toJson_eq]
  refine sound_members fun m hm => ?_
  rcases List.mem_append.mp hm with hm | hm
  · obtain ⟨f, -, rfl⟩ := List.mem_map.mp hm
    exact sound_ofText f
  · obtain rfl := List.mem_singleton.mp hm
    exact sound_array ShelfSource.sound_toJson c.shelves

theorem ofJson?_toJson (c : Configuration) : ofJson? c.toJson = if c.Positive then some c else none := by
  have hfilter : Json.optional? Json.text? (c.logFilter.map .ofText) = some c.logFilter := by
    cases c.logFilter with
    | none => rfl
    | some f => exact congrArg (Option.map some) (text?_ofText f)
  simp only [ofJson?, fieldValues?_toJson, Option.bind_eq_bind, Option.bind_some, hfilter, elements?,
    c.mapM_shelves ShelfSource.ofJson?_toJson, Option.pure_def]
  split <;> rfl

theorem positive_of_ofJson? {j : Json} {c : Configuration} (h : ofJson? j = some c) : c.Positive := by
  obtain ⟨vs, -, h⟩ := Option.bind_eq_some_iff.mp h
  split at h
  · obtain ⟨filter, -, h⟩ := Option.bind_eq_some_iff.mp h
    split at h
    · obtain rfl := Option.some.inj h
      exact nofun
    · simp only [Option.bind_eq_bind, Option.bind_eq_some_iff, Option.pure_def, Option.some.injEq] at h
      obtain ⟨js, -, shelves, hshelves, rfl⟩ := h
      exact forall_of_mapM ShelfSource.positive_of_ofJson? hshelves
  · cases h

theorem lawfulOn : codec.LawfulOn Positive where
  sound := sound_toJson
  ofJson?_toJson := ofJson?_toJson
  valid_of_ofJson? := positive_of_ofJson?

end Configuration

/-! ## Texts -/

/-- **The data of a catalog survives interchange.** In either layout books and shelf identifiers are read back as
    they were written, locations and configurations exactly when all their locations are positive. Whatever any
    text is read as survives being written and read again. -/
theorem interchange_round_trips (layout : Layout) :
    (∀ b : Book, Book.codec.read? (Book.codec.write layout b) = some b) ∧
    (∀ i : ShelfId, Identifier.codec.read? (Identifier.codec.write layout i) = some i) ∧
    (∀ l : Location, Location.codec.read? (Location.codec.write layout l) = if l.Positive then some l else none) ∧
    (∀ c : Configuration, Configuration.codec.read? (Configuration.codec.write layout c) =
      if c.Positive then some c else none) ∧
    Book.codec.Stable layout ∧ (Identifier.codec : Codec ShelfId).Stable layout ∧ Location.codec.Stable layout ∧
    Configuration.codec.Stable layout := by
  refine ⟨fun b => ?_, fun i => ?_, Location.lawfulOn.read?_write layout,
    Configuration.lawfulOn.read?_write layout, Book.lawfulOn.stable layout, Identifier.lawfulOn.stable layout,
    Location.lawfulOn.stable layout, Configuration.lawfulOn.stable layout⟩
  · rw [Book.lawfulOn.read?_write, if_pos trivial]
  · rw [Identifier.lawfulOn.read?_write, if_pos trivial]

end LibraryCatalog
