import LibraryCatalog.Proofs.Book.Description
import LibraryCatalog.Proofs.CommandLine.Answer
import LibraryCatalog.Proofs.Interchange.RoundTrip

/-!
# `LibraryCatalog.Proofs.CommandLine.JsonOutput` — what is printed as JSON says everything about the books

The commands that list books can print them as JSON. Another program that reads this gets the books themselves, in
their order, and nothing is lost on the way, whatever characters the record files hold. What stands on a shelf is
printed with the number of its shelf; the books of a file that is only shown have none.

## Contents
- **Books to show.** `Command.printsJson`; `Answers`, the books that a command finds for an invocation.
- **Running.** `Answers.run_eq`: such a command prints the list of the books that it finds;
  `exists_answers_of_run_eq`.
- **Printed arrays.** `ShowsBooks`, a text from which books are read; `showsBooks_listText`.
- **Shelves.** `isSome_shelf_of_loadLibrary`; books that are found have shelves if they come from a library.
- **Result.** `outcome_json`.
-/

namespace LibraryCatalog

open Text Json

namespace CommandLine

variable {files : Files} {env : Configuration.Environment} {i : Invocation} {args : List String} {books : List Book}
  {stdout : String}

/-! ## Books to show -/

/-- Whether a command prints books as JSON. -/
def Command.printsJson : Command → Bool
  | .parse _ json => json
  | .search _ json => json
  | .inventory _ json => json
  | _ => false

/-- The books that a command finds: those of a record file, or those of the library that a search or an inventory
    gives. -/
inductive Answers (files : Files) (env : Configuration.Environment) (i : Invocation) : List Book → Prop where
  | parse {c : Configuration} {path : String} {json : Bool} {books : List Book} :
      resolveConfiguration files env i.config = .ok c → i.command = .parse path json → files.books path = .ok books →
      Answers files env i books
  | search {c : Configuration} {l : Library} {expression : String} {json : Bool} :
      resolveConfiguration files env i.config = .ok c → i.command = .search expression json →
      loadLibrary files c i.loads = .ok l → Answers files env i ((l.search expression).map Entry.book)
  | inventory {c : Configuration} {l : Library} {q : InventoryQuery} {json : Bool} {es : List Entry} :
      resolveConfiguration files env i.config = .ok c → i.command = .inventory q json →
      loadLibrary files c i.loads = .ok l → l.inventory q = .ok es → Answers files env i (es.map Entry.book)

/-! ## Running -/

theorem usesLibrary_search (expression : String) (json : Bool) : (Command.search expression json).UsesLibrary := nofun

theorem usesLibrary_inventory (q : InventoryQuery) (json : Bool) : (Command.inventory q json).UsesLibrary := nofun

/-- **A command that is to print JSON prints the books that it finds.** -/
theorem Answers.run_eq (h : Answers files env i books) (hjson : i.command.printsJson = true) :
    run files env i = .ok (Book.listText books ++ "\n") := by
  obtain ⟨config, loads, command⟩ := i
  cases h with
  | @parse c path json _ hc hcommand hbooks =>
    obtain rfl : command = .parse path json := hcommand
    obtain rfl : json = true := hjson
    rw [run_parse, showFile_eq, hbooks]
    exact bind_eq_ok_iff.mpr ⟨c, mapError_eq_ok_iff.mpr hc, rfl⟩
  | @search c l expression json hc hcommand hl =>
    obtain rfl : command = .search expression json := hcommand
    obtain rfl : json = true := hjson
    refine (run_eq_ok_iff_of_usesLibrary (usesLibrary_search _ _)).mpr ⟨c, l, hc, hl, ?_⟩
    -- there is no summary behind the array
    exact congrArg Except.ok (String.append_empty ..)
  | @inventory c l q json es hc hcommand hl hes =>
    obtain rfl : command = .inventory q json := hcommand
    obtain rfl : json = true := hjson
    refine (run_eq_ok_iff_of_usesLibrary (usesLibrary_inventory _ _)).mpr ⟨c, l, hc, hl, ?_⟩
    rw [Command.onLibrary, hes]
    rfl

/-- A command that succeeds has found books. -/
theorem exists_answers_of_run_eq (h : run files env i = .ok stdout) (hjson : i.command.printsJson = true) :
    ∃ books, Answers files env i books := by
  obtain ⟨config, loads, command⟩ := i
  cases command with
  | parse path json =>
    rw [run_parse, showFile_eq] at h
    obtain ⟨c, hc, h⟩ := bind_eq_ok_iff.mp h
    cases hbooks : files.books path with
    | error e => rw [hbooks] at h; cases h
    | ok books => exact ⟨books, .parse (mapError_eq_ok_iff.mp hc) rfl hbooks⟩
  | search expression json =>
    obtain ⟨c, l, hc, hl, -⟩ := (run_eq_ok_iff_of_usesLibrary (usesLibrary_search _ _)).mp h
    exact ⟨_, .search hc rfl hl⟩
  | inventory q json =>
    obtain ⟨c, l, hc, hl, h⟩ := (run_eq_ok_iff_of_usesLibrary (usesLibrary_inventory _ _)).mp h
    cases hes : l.inventory q with
    | error e => rw [Command.onLibrary, hes] at h; cases h
    | ok es => exact ⟨_, .inventory hc rfl hl hes⟩
  | find isbn => cases hjson
  | info => cases hjson

/-! ## Printed arrays -/

/-- A text is a JSON array and a line feed, and its elements are read as some books, in their order. -/
inductive ShowsBooks (stdout : String) (books : List Book) : Prop where
  | intro {array : String} {js : List Json} : stdout = array ++ "\n" → Written (.array js) array.toList →
      Json.read? array = some (.array js) → js.mapM Book.ofJson? = some books → ShowsBooks stdout books

/-- **The list of some books shows these books.** -/
theorem showsBooks_listText (books : List Book) : ShowsBooks (Book.listText books ++ "\n") books := by
  have hsound : (Json.array (books.map Book.toJson)).Sound := sound_array Book.sound_toJson books
  have hwritten : Written (.array (books.map Book.toJson)) (Book.listText books).toList := by
    rw [Book.listText, render, String.toList_ofList]
    exact written_renderAt .pretty 0 hsound
  exact ⟨rfl, hwritten, read?_render .pretty hsound, mapM_map_of_read Book.ofJson?_toJson books⟩

/-- A text shows one list of books only. -/
theorem ShowsBooks.unique {books' : List Book} (h : ShowsBooks stdout books) (h' : ShowsBooks stdout books') :
    books = books' := by
  obtain ⟨rfl, -, hread, hbooks⟩ := h
  obtain ⟨harray, -, hread', hbooks'⟩ := h'
  have hchars := congrArg String.toList harray
  rw [String.toList_append, String.toList_append] at hchars
  rw [String.toList_inj.mp (List.append_cancel_right hchars), hread'] at hread
  obtain rfl := Json.array.inj (Option.some.inj hread)
  exact Option.some.inj (hbooks.symm.trans hbooks')

/-! ## Shelves -/

/-- A book of a library that was loaded stands on a shelf. -/
theorem isSome_shelf_of_loadLibrary {c : Configuration} {loads : List ShelfSource} {l : Library}
    (h : loadLibrary files c loads = .ok l) : ∀ e ∈ l.catalog, e.book.shelf.isSome = true := by
  have hloaded : (Library.empty.loadAll files (c.shelves ++ loads)).1 = l :=
    congrArg Prod.fst (loadLibrary_eq_ok_iff.mp h)
  have hlinked : l.Linked := hloaded ▸ Library.linked_loadAll files _
  intro e he
  have hbook : e.book ∈ l.books := Array.mem_toList_iff.mp (List.mem_of_getElem? (mem_entries.mp he))
  obtain ⟨s, -, hs⟩ := hlinked.book_shelf _ hbook
  rw [hs]
  rfl

theorem Answers.shelf_eq_none (h : Answers files env i books) {path : String} {json : Bool}
    (hcommand : i.command = .parse path json) : ∀ b ∈ books, b.shelf = none := by
  cases h with
  | @parse _ path _ _ _ _ hbooks =>
    obtain ⟨text, -, htext⟩ := bind_eq_ok_iff.mp hbooks
    exact Book.shelf_eq_none_of_read (eq_ok_of_mapError htext)
  | search _ hsearch _ => rw [hsearch] at hcommand; cases hcommand
  | inventory _ hinventory _ _ => rw [hinventory] at hcommand; cases hcommand

theorem Answers.isSome_shelf (h : Answers files env i books) (hcommand : i.command.UsesLibrary) :
    ∀ b ∈ books, b.shelf.isSome = true := by
  cases h with
  | parse _ hparse _ => exact absurd hparse (hcommand _ _)
  | search _ _ hl =>
    refine List.forall_mem_map.mpr fun e he => ?_
    exact isSome_shelf_of_loadLibrary hl e (List.mem_of_mem_filter he)
  | @inventory _ l q _ es _ _ hl hes =>
    have hasked : l.entriesOn (l.shelvesMatching q) = es := by
      rw [Library.inventory] at hes
      split at hes
      · cases hes
      · exact Except.ok.inj hes
    refine List.forall_mem_map.mpr fun e he => ?_
    exact isSome_shelf_of_loadLibrary hl e (List.mem_of_mem_filter (hasked ▸ he))

/-! ## Result -/

/-- **A command that is to print JSON succeeds if it finds books, and prints these**: one array and a line feed, from
    which exactly the books are read that the record file holds, or that the search or the inventory of the loaded
    library gives, in their order. Books of a library have the number of their shelf, books of a file that is only
    shown have none. -/
theorem outcome_json (files : Files) (env : Configuration.Environment) (h : Invocation.ofArguments args = .ok i)
    (hjson : i.command.printsJson = true) :
    ((outcome files env args).exit = 0 ↔ ∃ books, Answers files env i books) ∧
    ∀ books, Answers files env i books →
      ∃ stdout, outcome files env args = ⟨0, stdout, none⟩ ∧
        (∀ books', ShowsBooks stdout books' ↔ books' = books) ∧
        (∀ path json, i.command = .parse path json → ∀ b ∈ books, b.shelf = none) ∧
        (i.command.UsesLibrary → ∀ b ∈ books, b.shelf.isSome = true) := by
  have hprints : ∀ books, Answers files env i books →
      outcome files env args = ⟨0, Book.listText books ++ "\n", none⟩ := fun books hbooks =>
    outcome_of_run_ok h (hbooks.run_eq hjson)
  refine ⟨⟨fun hexit => ?_, fun ⟨books, hbooks⟩ => by rw [hprints books hbooks]⟩, fun books hbooks => ?_⟩
  · cases hrun : run files env i with
    | error f =>
      rw [outcome_of_run_error h hrun] at hexit
      cases hexit
    | ok stdout => exact exists_answers_of_run_eq hrun hjson
  · refine ⟨_, hprints books hbooks, fun books' => ⟨fun hshows => ?_, ?_⟩, fun _ _ => hbooks.shelf_eq_none,
      hbooks.isSome_shelf⟩
    · exact hshows.unique (showsBooks_listText books)
    · rintro rfl
      exact showsBooks_listText books'

/-- A record file with a title that has to be escaped. -/
def sampleQuotes : Files where
  read
    | "q" => .ok "Book\nTitle: \"a\\b\u0001\""
    | _ => .error .notFound
  isFile path := path == "q"

/-- The book of that file. -/
def sampleQuoted : Book := { Book.blank with title := "\"a\\b\u0001\"" }

theorem sample_json :
    (∃ stdout, outcome sampleQuotes ⟨none, none⟩ ["parse", "q", "--json"] = ⟨0, stdout, none⟩ ∧
      ShowsBooks stdout [sampleQuoted]) ∧
    ∃ stdout books, outcome sampleRecords ⟨none, none⟩ ["--load=1/1/3=b", "search", "Box", "--json"] =
        ⟨0, stdout, none⟩ ∧ ShowsBooks stdout books ∧ books.map Book.title = ["Box -x"] ∧
      ∀ b ∈ books, b.shelf.isSome = true := by
  constructor
  · have hargs : Invocation.ofArguments ["parse", "q", "--json"] = .ok ⟨none, [], .parse "q" true⟩ := by
      decide +kernel
    have hbooks : sampleQuotes.books "q" = .ok [sampleQuoted] := rfl
    have hanswers : Answers sampleQuotes ⟨none, none⟩ ⟨none, [], .parse "q" true⟩ [sampleQuoted] :=
      .parse (c := .empty) rfl rfl hbooks
    obtain ⟨stdout, houtcome, hshows, -⟩ := (outcome_json sampleQuotes ⟨none, none⟩ hargs rfl).2 _ hanswers
    exact ⟨stdout, houtcome, (hshows _).mpr rfl⟩
  · have hargs : Invocation.ofArguments ["--load=1/1/3=b", "search", "Box", "--json"] =
        .ok ⟨none, [⟨⟨1, 1, 3⟩, "b"⟩], .search "Box" true⟩ := by decide +kernel
    have hconfiguration : resolveConfiguration sampleRecords ⟨none, none⟩ none = .ok .empty := rfl
    have hbooks : sampleRecords.books "b" = .ok (sampleContent "b") := rfl
    have huses := usesLibrary_search "Box" true
    obtain ⟨l, hl, hholds, -⟩ := run_of_good_files (i := ⟨none, [⟨⟨1, 1, 3⟩, "b"⟩], .search "Box" true⟩) huses
      hconfiguration (by decide) (List.forall_mem_singleton.mpr hbooks)
    have hanswers := Answers.search hconfiguration rfl hl
    obtain ⟨stdout, houtcome, hshows, -, hshelves⟩ := (outcome_json sampleRecords ⟨none, none⟩ hargs rfl).2 _ hanswers
    refine ⟨stdout, _, houtcome, (hshows _).mpr rfl, ?_, hshelves huses⟩
    rw [map_book_search hholds]
    decide +kernel

end CommandLine

end LibraryCatalog
