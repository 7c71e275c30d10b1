import LibraryCatalog.Book
import LibraryCatalog.Proofs.Record.Section
import LibraryCatalog.Proofs.Text.Numeral

/-!
# `LibraryCatalog.Proofs.Book.Description` — which books a text describes

The lines of a book are applied one after the other, each by the setter of its field. What they come to can be said
without any order of application: the last value of a text or of a number counts, and every value of a list.

## Contents
- **Attributes.** `Book.DescribedBy`, the attributes of a book as they follow from the values under their keys;
  `DescribedBy.unique`.
- **One line.** `DescribedBy.step`, what an accepted line adds to a description.
- **A text.** `shelf_eq_none_of_read`; `Book.Listed`, one book for each marker line, and `listed_of_read`.
-/

namespace LibraryCatalog.Book

open Record Text

variable {b b' : Book} {body : List (List Char)} {line : List Char}

/-! ## Attributes -/

/-- The value of a text attribute: that of the last line for it, or the empty text. -/
def lastText (values : List String) : String := values.getLast?.getD ""

/-- A number is that of the last line for it, or zero. -/
def IsLastNumber (values : List String) (n : Int32) : Prop :=
  match values.getLast? with
  | none => n = 0
  | some value => Numeral value.toList n.toInt

/-- A book is the one that the lines of a section describe. -/
structure DescribedBy (b : Book) (body : List (List Char)) : Prop where
  isbn_eq : b.isbn = lastText (valuesUnder ["ISBN"] body)
  title_eq : b.title = lastText (valuesUnder ["Title"] body)
  authors_eq : b.authors = valuesUnder ["Authors", "Author"] body
  publisher_eq : b.publisher = lastText (valuesUnder ["Publisher"] body)
  publicationYear : IsLastNumber (valuesUnder ["PublicationYear", "Published"] body) b.publicationYear
  numberOfPages : IsLastNumber (valuesUnder ["NumberOfPages"] body) b.numberOfPages
  shelf_eq : b.shelf = none

theorem lastText_concat (values : List String) (value : String) : lastText (values ++ [value]) = value := by
  rw [lastText, List.getLast?_concat, Option.getD_some]

theorem isLastNumber_concat {value : String} {n : Int32} (h : Numeral value.toList n.toInt)
    (values : List String) : IsLastNumber (values ++ [value]) n := by
  rw [IsLastNumber, List.getLast?_concat]
  exact h

theorem IsLastNumber.unique {values : List String} {n m : Int32} (hn : IsLastNumber values n)
    (hm : IsLastNumber values m) : n = m := by
  unfold IsLastNumber at hn hm
  cases hlast : values.getLast? with
  | none =>
    rw [hlast] at hn hm
    exact hn.trans hm.symm
  | some value =>
    rw [hlast] at hn hm
    exact Int32.toInt_inj.mp (hn.unique hm)

/-- **The lines of a section describe one book only.** -/
theorem DescribedBy.unique (h : b.DescribedBy body) (h' : b'.DescribedBy body) : b = b' := by
  obtain ⟨isbn, title, authors, publisher, year, pages, shelf⟩ := b
  obtain ⟨isbn', title', authors', publisher', year', pages', shelf'⟩ := b'
  obtain rfl := h.isbn_eq.trans h'.isbn_eq.symm
  obtain rfl := h.title_eq.trans h'.title_eq.symm
  obtain rfl := h.authors_eq.trans h'.authors_eq.symm
  obtain rfl := h.publisher_eq.trans h'.publisher_eq.symm
  obtain rfl := h.publicationYear.unique h'.publicationYear
  obtain rfl := h.numberOfPages.unique h'.numberOfPages
  obtain rfl := h.shelf_eq.trans h'.shelf_eq.symm
  rfl

/-! ## One line -/

/-- A section without lines describes a blank book. -/
theorem describedBy_blank : blank.DescribedBy [] where
  isbn_eq := rfl
  title_eq := rfl
  authors_eq := rfl
  publisher_eq := rfl
  publicationYear := rfl
  numberOfPages := rfl
  shelf_eq := rfl

/-- **An accepted line keeps the description**, with the line among the lines of the section. -/
theorem DescribedBy.step (h : b.DescribedBy body) (hline : format.applyLine line b = .ok b') :
    b'.DescribedBy (body ++ [line]) := by
  obtain ⟨key, value, field, hcut, hfield, hset⟩ := Format.applyLine_eq_ok_iff.mp hline
  obtain ⟨hmem, hkey⟩ := mem_of_resolve hfield
  -- the values under the keys of the line grow by its value, all others stay as they are
  have hvalues : ∀ keys, valuesUnder keys (body ++ [line]) = valuesUnder keys body ++
      if String.ofList (trim key) ∈ keys then [String.ofList (trim value)] else [] := by
    intro keys
    rw [valuesUnder_append, valuesUnder_singleton hcut]
  obtain ⟨hisbn, htitle, hauthors, hpublisher, hyear, hpages, hshelf⟩ := h
  generalize String.ofList (trim key) = k at hkey hset hvalues
  simp only [format, fields, List.mem_cons, List.not_mem_nil, or_false] at hmem
  -- one case for each row of the table
  rcases hmem with rfl | rfl | rfl | rfl | rfl | rfl
  · obtain rfl : k = "ISBN" := List.mem_singleton.mp hkey
    obtain rfl := Except.ok.inj hset
    constructor <;> simp [lastText_concat, *]
  · obtain rfl : k = "Title" := List.mem_singleton.mp hkey
    obtain rfl := Except.ok.inj hset
    constructor <;> simp [lastText_concat, *]
  · obtain rfl := Except.ok.inj hset
    have hk : k = "Authors" ∨ k = "Author" := by simpa [Field.keys] using hkey
    rcases hk with rfl | rfl <;> constructor <;> simp [*]
  · obtain rfl : k = "Publisher" := List.mem_singleton.mp hkey
    obtain rfl := Except.ok.inj hset
    constructor <;> simp [lastText_concat, *]
  · obtain ⟨n, hn, rfl⟩ := Setter.apply_integer_eq_ok_iff.mp hset
    rw [← String.toList_ofList (l := trim value)] at hn
    have hlast := isLastNumber_concat hn (valuesUnder ["PublicationYear", "Published"] body)
    have hk : k = "PublicationYear" ∨ k = "Published" := by simpa [Field.keys] using hkey
    rcases hk with rfl | rfl <;> constructor <;> simp [*]
  · obtain rfl : k = "NumberOfPages" := List.mem_singleton.mp hkey
    obtain ⟨n, hn, rfl⟩ := Setter.apply_integer_eq_ok_iff.mp hset
    rw [← String.toList_ofList (l := trim value)] at hn
    have hlast := isLastNumber_concat hn (valuesUnder ["NumberOfPages"] body)
    constructor <;> simp [*]

/-- A blank line adds nothing to a description. -/
theorem DescribedBy.blank_line (h : b.DescribedBy body) (hblank : isBlankLine line = true) :
    b.DescribedBy (body ++ [line]) := by
  have hvalues : ∀ keys, valuesUnder keys (body ++ [line]) = valuesUnder keys body := by
    intro keys
    rw [valuesUnder_append, valuesUnder_of_blank hblank, List.append_nil]
  obtain ⟨hisbn, htitle, hauthors, hpublisher, hyear, hpages, hshelf⟩ := h
  refine ⟨?_, ?_, ?_, ?_, ?_, ?_, hshelf⟩ <;> rw [hvalues] <;> assumption

/-- **The lines of a section make the book that they describe**, by induction on the lines that are left. -/
theorem describedBy_of_applyLines {rest : List (List Char)} (h : b.DescribedBy body)
    (hrest : format.applyLines b rest = .ok b') : b'.DescribedBy (body ++ rest) := by
  induction rest generalizing b body with
  | nil =>
    rw [List.append_nil, ← Except.ok.inj hrest]
    exact h
  | cons line rest ih =>
    rw [← List.singleton_append, ← List.append_assoc]
    by_cases hblank : isBlankLine line = true
    · rw [Format.applyLines_of_blank hblank] at hrest
      exact ih (h.blank_line hblank) hrest
    · cases hline : format.applyLine line b with
      | error o => rw [Format.applyLines, List.foldlM_cons, if_neg hblank, hline] at hrest; cases hrest
      | ok r =>
        rw [Format.applyLines_of_ok hblank hline] at hrest
        exact ih (h.step hline) hrest

/-! ## A text -/

/-- The books of a text: one for each line that starts with `Book`, in the order of these lines, and each is
described by the lines below its own down to the next such line, and by no others. -/
structure Listed (lines : List (List Char)) (books : List Book) : Prop where
  length_eq : books.length = lines.countP fun line => "Book".toList.isPrefixOf line
  described : ∀ above marker body below, lines = above ++ marker :: (body ++ below) →
    "Book".toList <+: marker → (∀ line ∈ body, ¬"Book".toList <+: line) →
    (∀ line ∈ below.head?, "Book".toList <+: line) →
    ∃ b, books[above.countP fun line => "Book".toList.isPrefixOf line]? = some b ∧
      ∀ b', b'.DescribedBy body ↔ b' = b

/-- A book that is read from a text stands on no shelf. -/
theorem shelf_eq_none_of_read {text : String} {books : List Book} (h : read text = .ok books) :
    ∀ b ∈ books, b.shelf = none := by
  intro b hb
  have hmade : (.ok b : Except Offence Book) ∈ books.map .ok := List.mem_map_of_mem hb
  rw [Format.map_ok_of_read h] at hmade
  obtain ⟨body, -, hbody⟩ := List.mem_map.mp hmade
  exact (describedBy_of_applyLines describedBy_blank hbody).shelf_eq

/-- **A text that is read lists the books that it describes.** -/
theorem listed_of_read {text : String} {books : List Book} (h : read text = .ok books) :
    Listed (text.toList.splitOn '\n') books := by
  have hmap := Format.map_ok_of_read h
  constructor
  · have hlen := congrArg List.length hmap
    rw [List.length_map, List.length_map, Format.length_sections] at hlen
    exact hlen
  · intro above marker body below hlines hmarker hbody hbelow
    rw [hlines] at hmap
    have hsection : (format.sections (above ++ marker :: (body ++ below)))[above.countP format.opens]? =
        some body :=
      Format.getElem?_sections (List.isPrefixOf_iff_prefix.mpr hmarker)
        (fun line hline => Bool.eq_false_iff.mpr (mt List.isPrefixOf_iff_prefix.mp (hbody line hline)))
        (fun line hline => List.isPrefixOf_iff_prefix.mpr (hbelow line hline))
    have hget := congrArg (fun rs => rs[above.countP format.opens]?) hmap
    simp only [List.getElem?_map, hsection, Option.map_some] at hget
    obtain ⟨b, hb, hmade⟩ := Option.map_eq_some_iff.mp hget
    have hdescribed := describedBy_of_applyLines describedBy_blank hmade.symm
    exact ⟨b, hb, fun b' => ⟨fun h' => h'.unique hdescribed, fun h' => h' ▸ hdescribed⟩⟩

/-- Three books, the second of them blank. -/
def sampleText : String :=
  "Book: 1\nTitle: A: B\n \t\nAuthor: C\nAuthors:\n Title : D\nBook\nBookmark\nPublished: +1\nPublished:-07\r"

/-- The books of the sample. -/
def sampleBooks : List Book :=
  [{ blank with title := "D", authors := ["C", ""] }, blank, { blank with publicationYear := -7 }]

theorem sample_listed :
    read sampleText = .ok sampleBooks ∧ Listed (sampleText.toList.splitOn '\n') sampleBooks := by
  have h : read sampleText = .ok sampleBooks := by
    have hbooks : (read sampleText).toOption = some sampleBooks := by decide +kernel
    cases hread : read sampleText with
    | error e => rw [hread] at hbooks; cases hbooks
    | ok books => rw [hread] at hbooks; rw [Option.some.inj hbooks]
  exact ⟨h, listed_of_read h⟩

end LibraryCatalog.Book
