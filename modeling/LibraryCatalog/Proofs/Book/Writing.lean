import LibraryCatalog.Proofs.Book.Description
import LibraryCatalog.Proofs.Record.Concatenation
import Mathlib.Data.List.Forall2

/-!
# `LibraryCatalog.Proofs.Book.Writing` — books written as a text, and read back

A list of books is written book by book, each with a marker line and one line for every attribute. Whatever of the
accepted keys is chosen for a line, and whatever the values hold, the text is read as the list that was written. What
cannot be written is white space around a value and a line feed within.

## Contents
- **Lines.** `FieldLine`, a value under one of some keys; `Format.Spells`, what keeps such a line apart from markers and
  from other keys.
- **Books.** `Book.WellShaped`, which books can be written, `Book.Block`, the lines of one, and `Book.Written`, a text
  of several.
- **Reading a block.** `applyLines_authors`, `Block.applyLines`, and so `Block.readLines`.
- **Reading a text.** `read_written`.
-/

namespace LibraryCatalog

open Text Record

/-! ## Lines -/

namespace Record

variable {ρ : Type} {f : Format ρ} {field : Field ρ} {key value line : String} {r r' : ρ}

/-- A line that is written for a value under one of some keys. -/
inductive FieldLine (keys : List String) (value : String) : String → Prop where
  | mk {key : String} : key ∈ keys → FieldLine keys value (key ++ ": " ++ value)

/-- A text that a line can hold as a value: it has no line feed and no white space around it. -/
structure IsValue (value : String) : Prop where
  newline_not_mem : '\n' ∉ value.toList
  trim_eq : trim value.toList = value.toList

instance (value : String) : Decidable (IsValue value) :=
  decidable_of_iff ('\n' ∉ value.toList ∧ trim value.toList = value.toList)
    ⟨fun h => ⟨h.1, h.2⟩, fun h => ⟨h.newline_not_mem, h.trim_eq⟩⟩

/-- A key spells a field: it stands for it, ends where the colon does, and cannot be taken for a marker. -/
structure Format.Spells (f : Format ρ) (field : Field ρ) (key : String) : Prop where
  resolve_eq : resolve f.fields key = some field
  colon_not_mem : ':' ∉ key.toList
  isValue : IsValue key
  not_marker : ¬f.marker.toList <+: key.toList ∧ ¬key.toList <+: f.marker.toList

theorem isValue_intText (n : Int) : IsValue (intText n) where
  newline_not_mem := by
    rw [intText, String.toList_ofList]
    intro h
    exact absurd (isBlank_of_mem_showInt h) (by decide)
  trim_eq := by rw [intText, String.toList_ofList, trim_showInt]

theorem toList_fieldLine (key value : String) :
    (key ++ ": " ++ value).toList = key.toList ++ ':' :: ' ' :: value.toList := by
  simp

theorem newline_not_mem_fieldLine (hkey : IsValue key) (hvalue : IsValue value) :
    '\n' ∉ (key ++ ": " ++ value).toList := by
  rw [toList_fieldLine]
  simp [hkey.newline_not_mem, hvalue.newline_not_mem]

theorem not_isBlankLine_fieldLine (key value : String) : ¬isBlankLine (key ++ ": " ++ value).toList = true := by
  rw [toList_fieldLine, isBlankLine, List.all_eq_true]
  intro h
  exact absurd (h ':' (by simp)) (by decide)

/-- A line under a key that cannot be taken for a marker opens no record. -/
theorem Format.Spells.not_opens (h : f.Spells field key) (value : String) :
    ¬f.opens (key ++ ": " ++ value).toList = true := by
  rw [Format.opens, List.isPrefixOf_iff_prefix, toList_fieldLine]
  intro hmarker
  rcases List.prefix_or_prefix_of_prefix hmarker (List.prefix_append _ _) with hpre | hpre
  · exact h.not_marker.1 hpre
  · exact h.not_marker.2 hpre

/-- **A line under a key of a field** has the effect of the field's setter on its value. -/
theorem Format.Spells.applyLine_eq (h : f.Spells field key) (hvalue : IsValue value) :
    f.applyLine (key ++ ": " ++ value).toList r = field.setter.apply key value.toList r := by
  have htrim : trim (' ' :: value.toList) = value.toList := hvalue.trim_eq
  rw [Format.applyLine, toList_fieldLine, cut_append h.colon_not_mem]
  simp only [h.isValue.trim_eq, htrim, String.ofList_toList, h.resolve_eq]

theorem Setter.apply_text (assign : String → ρ → ρ) :
    (Setter.text assign).apply key value.toList r = .ok (assign value r) := by
  rw [Setter.apply, String.ofList_toList]

theorem Setter.apply_list (append : String → ρ → ρ) :
    (Setter.list append).apply key value.toList r = .ok (append value r) := by
  rw [Setter.apply, String.ofList_toList]

theorem Setter.apply_integer (assign : Int32 → ρ → ρ) (n : Int32) :
    (Setter.integer assign).apply key (intText n.toInt).toList r = .ok (assign n r) := by
  rw [Setter.apply, intText, String.toList_ofList, int32?_showInt]

/-- What is written for a value neither opens a record nor breaks off. -/
theorem FieldLine.plain {keys : List String} (hkeys : ∀ key ∈ keys, f.Spells field key)
    (h : FieldLine keys value line) (hvalue : IsValue value) :
    ¬f.opens line.toList = true ∧ '\n' ∉ line.toList := by
  cases h with
  | mk hkey =>
    exact ⟨(hkeys _ hkey).not_opens value, newline_not_mem_fieldLine (hkeys _ hkey).isValue hvalue⟩

/-- A line of a field has its effect, and the others follow. -/
theorem FieldLine.applyLines_cons (hfield : ∀ key ∈ field.keys, f.Spells field key)
    (h : FieldLine field.keys value line) (hvalue : IsValue value)
    (hset : ∀ key, field.setter.apply key value.toList r = .ok r') (lines : List (List Char)) :
    f.applyLines r (line.toList :: lines) = f.applyLines r' lines := by
  cases h with
  | mk hkey =>
    refine Format.applyLines_of_ok (not_isBlankLine_fieldLine _ value) ?_ lines
    rw [(hfield _ hkey).applyLine_eq hvalue, hset]

end Record

/-- What corresponds to a good element is good, if the relation takes care of that. -/
theorem forall_of_forall₂ {α β : Type} {R : α → β → Prop} {P : β → Prop} {as : List α} {bs : List β}
    (h : List.Forall₂ R as bs) (hP : ∀ a ∈ as, ∀ b, R a b → P b) : ∀ b ∈ bs, P b := by
  induction h with
  | nil => exact List.forall_mem_nil P
  | cons hab _ ih =>
    obtain ⟨hfirst, hrest⟩ := List.forall_mem_cons.mp hP
    exact List.forall_mem_cons.mpr ⟨hfirst _ hab, ih hrest⟩

namespace Book

variable {b : Book} {lines : List String}

/-! ## Books -/

/-- A book that can be written: its texts are values of lines, and it is on no shelf. -/
structure WellShaped (b : Book) : Prop where
  isbn : IsValue b.isbn
  title : IsValue b.title
  authors : ∀ a ∈ b.authors, IsValue a
  publisher : IsValue b.publisher
  shelf : b.shelf = none

/-- The lines that are written for a book: one that starts with `Book`, whatever follows, and then one for every
attribute, each author having one, under any of its keys. -/
inductive Block (b : Book) : List String → Prop where
  | mk {marker isbn title publisher year pages : String} {authors : List String} :
      "Book".toList <+: marker.toList → '\n' ∉ marker.toList →
      FieldLine ["ISBN"] b.isbn isbn →
      FieldLine ["Title"] b.title title →
      List.Forall₂ (FieldLine ["Authors", "Author"]) b.authors authors →
      FieldLine ["Publisher"] b.publisher publisher →
      FieldLine ["PublicationYear", "Published"] (intText b.publicationYear.toInt) year →
      FieldLine ["NumberOfPages"] (intText b.numberOfPages.toInt) pages →
      Block b (marker :: isbn :: title :: (authors ++ [publisher, year, pages]))

/-- A text that is written for some books: their lines in order, with line feeds between them. -/
def Written (books : List Book) (text : String) : Prop :=
  ∃ blocks, List.Forall₂ Block books blocks ∧ text = "\n".intercalate blocks.flatten

/-! ## Reading a block -/

/-- Every key of the table spells its field. -/
theorem spells_of_mem {field : Record.Field Book} (hfield : field ∈ fields) :
    ∀ key ∈ field.keys, format.Spells field key := by
  intro key hkey
  have hplain : ∀ key ∈ fields.flatMap Field.keys, ':' ∉ key.toList ∧
      ('\n' ∉ key.toList ∧ trim key.toList = key.toList) ∧
        ¬"Book".toList <+: key.toList ∧ ¬key.toList <+: "Book".toList := by
    decide +kernel
  obtain ⟨hcolon, ⟨hnewline, htrim⟩, hmarker⟩ := hplain key (List.mem_flatMap.mpr ⟨field, hfield, hkey⟩)
  exact ⟨resolve_of_nodup (by decide +kernel) hfield hkey, hcolon, ⟨hnewline, htrim⟩, hmarker⟩

theorem spells_field (n : Nat) (hn : n < fields.length) : ∀ key ∈ fields[n].keys, format.Spells fields[n] key :=
  spells_of_mem (List.getElem_mem hn)

/-- The lines of authors add these to the list, in their order. -/
theorem applyLines_authors {authors : List String} (h : List.Forall₂ (FieldLine ["Authors", "Author"]) authors lines)
    (hauthors : ∀ a ∈ authors, IsValue a) (rest : List (List Char)) :
    format.applyLines b (lines.map String.toList ++ rest) =
      format.applyLines { b with authors := b.authors ++ authors } rest := by
  induction h generalizing b with
  | nil => rw [List.append_nil]; rfl
  | @cons author line authors lines hline _ ih =>
    obtain ⟨hauthor, hauthors⟩ := List.forall_mem_cons.mp hauthors
    rw [List.map_cons, List.cons_append,
      FieldLine.applyLines_cons (spells_field 2 (by decide)) hline hauthor fun _ => Setter.apply_list _]
    show format.applyLines { b with authors := b.authors ++ [author] } _ = _
    rw [ih hauthors]
    simp only [List.append_assoc, List.singleton_append]

/-- **The lines of a block make its book** of a blank one. -/
theorem Block.applyLines {marker : String} {body : List String} (h : b.Block (marker :: body)) (hb : b.WellShaped) :
    format.applyLines blank (body.map String.toList) = .ok b := by
  cases h with
  | @mk _ isbn title publisher year pages authors _ _ hisbn htitle hauthors hpublisher hyear hpages =>
    rw [List.map_cons, List.map_cons, List.map_append]
    calc format.applyLines blank (isbn.toList :: title.toList :: (authors.map String.toList ++ _))
      _ = format.applyLines { blank with isbn := b.isbn } (title.toList :: (authors.map String.toList ++ _)) :=
        FieldLine.applyLines_cons (spells_field 0 (by decide)) hisbn hb.isbn (fun _ => Setter.apply_text _) _
      _ = format.applyLines { blank with isbn := b.isbn, title := b.title } (authors.map String.toList ++ _) :=
        FieldLine.applyLines_cons (spells_field 1 (by decide)) htitle hb.title (fun _ => Setter.apply_text _) _
      _ = format.applyLines { blank with isbn := b.isbn, title := b.title, authors := b.authors }
          [publisher.toList, year.toList, pages.toList] := applyLines_authors hauthors hb.authors _
      _ = format.applyLines
          { blank with isbn := b.isbn, title := b.title, authors := b.authors, publisher := b.publisher }
          [year.toList, pages.toList] :=
        FieldLine.applyLines_cons (spells_field 3 (by decide)) hpublisher hb.publisher (fun _ => Setter.apply_text _) _
      _ = format.applyLines { b with numberOfPages := 0, shelf := none } [pages.toList] :=
        FieldLine.applyLines_cons (spells_field 4 (by decide)) hyear (isValue_intText _)
          (fun _ => Setter.apply_integer _ _) _
      _ = format.applyLines { b with shelf := none } [] :=
        FieldLine.applyLines_cons (spells_field 5 (by decide)) hpages (isValue_intText _)
          (fun _ => Setter.apply_integer _ _) _
      _ = .ok b := by rw [← hb.shelf]; rfl

/-- The first line of a block opens a record, and its other lines open none. No line of it breaks off. -/
theorem Block.exists_cons (h : b.Block lines) (hb : b.WellShaped) :
    ∃ marker body, lines = marker :: body ∧ (format.opens marker.toList = true ∧ '\n' ∉ marker.toList) ∧
      ∀ line ∈ body, ¬format.opens line.toList = true ∧ '\n' ∉ line.toList := by
  cases h with
  | @mk marker isbn title publisher year pages authors hmarker hnewline hisbn htitle hauthors hpublisher hyear hpages =>
    refine ⟨marker, _, rfl, ⟨List.isPrefixOf_iff_prefix.mpr hmarker, hnewline⟩, ?_⟩
    simp only [List.forall_mem_cons, List.forall_mem_append]
    refine ⟨hisbn.plain (spells_field 0 (by decide)) hb.isbn, htitle.plain (spells_field 1 (by decide)) hb.title,
      forall_of_forall₂ hauthors fun a ha _ hline => hline.plain (spells_field 2 (by decide)) (hb.authors a ha),
      hpublisher.plain (spells_field 3 (by decide)) hb.publisher,
      hyear.plain (spells_field 4 (by decide)) (isValue_intText _),
      hpages.plain (spells_field 5 (by decide)) (isValue_intText _), List.forall_mem_nil _⟩

/-- **A block is read as its book.** -/
theorem Block.readLines (h : b.Block lines) (hb : b.WellShaped) (n : Nat) :
    format.readLines n none (lines.map String.toList) = .ok [b] := by
  obtain ⟨marker, body, rfl, ⟨hmarker, -⟩, hbody⟩ := h.exists_cons hb
  have hopens : ∀ line ∈ body.map String.toList, ¬format.opens line = true :=
    List.forall_mem_map.mpr fun line hline => (hbody line hline).1
  have hmade : format.applyLines format.blank (body.map String.toList) = .ok b := h.applyLines hb
  rw [List.map_cons, Format.readLines, if_pos hmarker, Format.readLines_of_applyLines hopens hmade]
  rfl

theorem Block.newline_not_mem (h : b.Block lines) (hb : b.WellShaped) : ∀ line ∈ lines, '\n' ∉ line.toList := by
  obtain ⟨marker, body, rfl, ⟨-, hmarker⟩, hbody⟩ := h.exists_cons hb
  exact List.forall_mem_cons.mpr ⟨hmarker, fun line hline => (hbody line hline).2⟩

/-! ## Reading a text -/

/-- Blocks start afresh, as each of them starts with a marker line. -/
theorem startsAfresh_blocks {books : List Book} {blocks : List (List String)} (h : List.Forall₂ Block books blocks)
    (hbooks : ∀ b ∈ books, b.WellShaped) : format.StartsAfresh (blocks.flatten.map String.toList) := by
  cases h with
  | nil => exact nofun
  | @cons b lines books blocks hblock _ =>
    obtain ⟨marker, body, rfl, ⟨hmarker, -⟩, -⟩ := hblock.exists_cons (hbooks b List.mem_cons_self)
    have hfind : ((marker :: body) :: blocks).flatten.map String.toList =
        marker.toList :: (body ++ blocks.flatten).map String.toList := rfl
    rw [hfind, Format.StartsAfresh, List.find?_cons_of_pos (by simp [hmarker])]
    rintro line ⟨⟩
    exact hmarker

/-- **Blocks one after the other** are read as their books. -/
theorem readLines_blocks {books : List Book} {blocks : List (List String)} (h : List.Forall₂ Block books blocks)
    (hbooks : ∀ b ∈ books, b.WellShaped) (n : Nat) :
    format.readLines n none (blocks.flatten.map String.toList) = .ok books := by
  induction h generalizing n with
  | nil => rfl
  | @cons b lines books blocks hblock hblocks ih =>
    obtain ⟨hb, hbooks⟩ := List.forall_mem_cons.mp hbooks
    rw [List.flatten_cons, List.map_append,
      Format.readLines_append_of_ok (hblock.readLines hb n) (startsAfresh_blocks hblocks hbooks), ih hbooks]
    rfl

/-- The lines of a text that is written for books. -/
theorem splitOn_intercalate_blocks {books : List Book} {blocks : List (List String)}
    (h : List.Forall₂ Block books blocks) (hbooks : ∀ b ∈ books, b.WellShaped) (hne : blocks.flatten ≠ []) :
    ("\n".intercalate blocks.flatten).toList.splitOn '\n' = blocks.flatten.map String.toList := by
  rw [String.toList_intercalate]
  refine List.splitOn_intercalate '\n' ?_ (List.map_eq_nil_iff.not.mpr hne)
  rw [List.forall_mem_map, List.forall_mem_flatten]
  exact forall_of_forall₂ h fun b hb lines hblock => hblock.newline_not_mem (hbooks b hb)

/-- A block for a book, with nothing but the marker on its first line and every field under its name. -/
def block (b : Book) : List String :=
  "Book" :: ("ISBN" ++ ": " ++ b.isbn) :: ("Title" ++ ": " ++ b.title) ::
    ((b.authors.map fun a => "Authors" ++ ": " ++ a) ++
      ["Publisher" ++ ": " ++ b.publisher, "PublicationYear" ++ ": " ++ intText b.publicationYear.toInt,
        "NumberOfPages" ++ ": " ++ intText b.numberOfPages.toInt])

theorem block_block (b : Book) : b.Block b.block := by
  refine .mk List.prefix_rfl (by decide +kernel) (.mk ?_) (.mk ?_) ?_ (.mk ?_) (.mk ?_) (.mk ?_)
  · exact List.mem_cons_self
  · exact List.mem_cons_self
  · rw [List.forall₂_map_right_iff, List.forall₂_same]
    exact fun a _ => .mk List.mem_cons_self
  · exact List.mem_cons_self
  · exact List.mem_cons_self
  · exact List.mem_cons_self

/-- **Every list of well-shaped books can be written, and whatever is written for it is read back.** -/
theorem read_written {books : List Book} (h : ∀ b ∈ books, b.WellShaped) :
    (∃ text, Written books text) ∧ ∀ text, Written books text → read text = .ok books := by
  constructor
  · refine ⟨_, books.map block, ?_, rfl⟩
    rw [List.forall₂_map_right_iff, List.forall₂_same]
    exact fun b _ => block_block b
  · rintro text ⟨blocks, hblocks, rfl⟩
    by_cases hne : blocks.flatten = []
    · -- without lines there is the empty text, which has a blank line
      have hread := readLines_blocks hblocks h 1
      rw [hne] at hread ⊢
      exact hread
    · rw [read, Format.read, splitOn_intercalate_blocks hblocks h hne]
      exact readLines_blocks hblocks h 1

/-- A book whose values look like markers and lines or are empty, with the numbers at both ends. -/
def sampleOddBook : Book := ⟨"", "Book: A", ["Book", ""], ":", -2147483648, 2147483647, none⟩

/-- Lines of this book. -/
def sampleOddBlock : List String :=
  "Bookmark: 1" :: ("ISBN" ++ ": " ++ "") :: ("Title" ++ ": " ++ "Book: A") ::
    (["Author" ++ ": " ++ "Book", "Authors" ++ ": " ++ ""] ++
      ["Publisher" ++ ": " ++ ":", "Published" ++ ": " ++ "-2147483648", "NumberOfPages" ++ ": " ++ "2147483647"])

theorem sample_read_written :
    (∀ b ∈ [sampleOddBook, blank], b.WellShaped) ∧
      read ("Bookmark: 1\nISBN: \nTitle: Book: A\nAuthor: Book\nAuthors: \nPublisher: :\nPublished: -2147483648\n" ++
        "NumberOfPages: 2147483647\nBook\nISBN: \nTitle: \nPublisher: \nPublicationYear: 0\nNumberOfPages: 0") =
      .ok [sampleOddBook, blank] := by
  have hshaped : ∀ b ∈ [sampleOddBook, blank], b.WellShaped := by
    refine List.forall_mem_cons.mpr ⟨?_, List.forall_mem_singleton.mpr ?_⟩
    · exact ⟨by decide +kernel, by decide +kernel, by decide +kernel, by decide +kernel, rfl⟩
    · exact ⟨by decide +kernel, by decide +kernel, nofun, by decide +kernel, rfl⟩
  have hodd : sampleOddBook.Block sampleOddBlock := by
    refine .mk (by decide +kernel) (by decide +kernel) (.mk ?_) (.mk ?_) (.cons (.mk ?_) (.cons (.mk ?_) .nil))
      (.mk ?_) (.mk ?_) (.mk ?_) <;> decide
  obtain ⟨-, hread⟩ := read_written hshaped
  refine ⟨hshaped, hread _ ⟨[sampleOddBlock, blank.block], ?_, by decide +kernel⟩⟩
  exact .cons hodd (.cons (block_block blank) .nil)

end Book

end LibraryCatalog
