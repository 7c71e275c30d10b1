import LibraryCatalog.Proofs.CommandLine.Line
import LibraryCatalog.Proofs.CommandLine.Stages
import LibraryCatalog.Proofs.Configuration.RoundTrip
import LibraryCatalog.Proofs.Record.Offence

/-!
# `LibraryCatalog.Proofs.CommandLine.Extending` — a command line goes on where a configuration ends

Record files can be listed in a configuration or given on the command line. A configuration in the current directory
and the command line behind it are one list of record files: wherever it is divided, a command on the library looks
the same, whether it succeeds or stops at the first record file that fails.

## Contents
- **Listing.** `Files.Lists`, a configuration under a bare name with the record files that it lists.
- **Reading elsewhere.** `books_write_toToml`: the document of a configuration is no record file, and so which one
  stands there matters to no record file.
- **Extending.** `Extended`, two file systems with configurations of which the second goes on; `Extended.books_eq`.
- **Result.** `loadLibrary_of_extended` for the library, `outcome_of_extended` for what can be seen.
-/

namespace LibraryCatalog

/-! ## Listing -/

/-- A configuration under a bare name lists some record files. Nothing is said about how its document is written. -/
def Files.Lists (files : Files) (name : String) (sources : List ShelfSource) : Prop :=
  BareName name ∧ ∃ text filter, files.read name = .ok text ∧ Configuration.ofToml? text = some ⟨filter, sources⟩

theorem Files.Lists.load {files : Files} {name : String} {sources : List ShelfSource} (h : files.Lists name sources) :
    ∃ filter, Configuration.load files name = .ok ⟨filter, sources⟩ := by
  obtain ⟨hname, text, filter, hread, htoml⟩ := h
  refine ⟨filter, ?_⟩
  rw [Configuration.load, hread]
  simp only [htoml, hname.parent?, Configuration.under_nil]

/-- A configuration that is written under a bare name lists its record files. -/
theorem lists_write (t : FileTree) {name : String} (hname : BareName name) (c : Configuration) (h : c.Positive) :
    (t.write name c.toToml.toUTF8).files.Lists name c.shelves := by
  refine ⟨hname, c.toToml, c.logFilter, t.read_write hname c.toToml, ?_⟩
  rw [Configuration.ofToml?_toToml, if_pos h]

/-! ## Reading elsewhere -/

/-- The document of a configuration starts outside a record. -/
theorem Book.read_toToml (c : Configuration) : Book.read c.toToml = .error ⟨1, .missingMarker "Book"⟩ := by
  obtain ⟨first, rest, htext, hfirst⟩ := c.exists_toToml_cons
  refine Record.Format.read_of_first htext ?_ fun line => ?_
  · rcases hfirst with rfl | rfl | rfl <;> decide
  · rcases hfirst with rfl | rfl | rfl <;> rfl

/-- **Which configuration stands under a bare name** matters to no record file, were it the configuration itself. -/
theorem FileTree.books_write_toToml (t : FileTree) {name : String} (hname : BareName name) (c c' : Configuration)
    (path : String) :
    (t.write name c.toToml.toUTF8).files.books path = (t.write name c'.toToml.toUTF8).files.books path := by
  have hread (c : Configuration) (h : (t.put [name] (.file c.toToml.toUTF8)).resolve path = .ok (.inside [name])) :
      (t.put [name] (.file c.toToml.toUTF8)).files.books path = .error (.format ⟨1, .missingMarker "Book"⟩) := by
    have htext : (t.put [name] (.file c.toToml.toUTF8)).files.read path = .ok c.toToml :=
      read_of_resolve _ h (t.node?_put name _)
    rw [Files.books, Files.recordText, htext]
    show (Book.read c.toToml).mapError _ = _
    rw [Book.read_toToml]
    rfl
  rw [write_bareName t _ hname, write_bareName t _ hname]
  by_cases hpath : (t.put [name] (.file c.toToml.toUTF8)).resolve path = .ok (.inside [name])
  · rw [hread c hpath, hread c' (by rwa [resolve_put path] at hpath)]
  · have hsame : (t.put [name] (.file c.toToml.toUTF8)).files.read path =
        (t.put [name] (.file c'.toToml.toUTF8)).files.read path := read_put_of_resolve_ne hpath
    exact Files.books_congr hsame

namespace CommandLine

/-! ## Extending -/

/-- Two file systems with configurations: the one of the first lists some record files, the one of the second goes on
    with further ones. -/
inductive Extended (front rest : List ShelfSource) : Files → String → Files → String → Prop where
  /-- Both configurations stand in one file system. -/
  | beside {files : Files} {name name' : String} : files.Lists name front → files.Lists name' (front ++ rest) →
      Extended front rest files name files name'
  /-- One is written into a tree in the place of the other. -/
  | rewritten (t : FileTree) {name : String} (filter filter' : Option String) : BareName name →
      (∀ s ∈ front ++ rest, s.location.Positive) →
      Extended front rest (t.write name (Configuration.toToml ⟨filter, front⟩).toUTF8).files name
        (t.write name (Configuration.toToml ⟨filter', front ++ rest⟩).toUTF8).files name
  /-- One document takes the place of the other in a tree, and no path of a record file leads to it. -/
  | replaced (t : FileTree) {name text text' : String} :
      (t.write name text.toUTF8).files.Lists name front →
      (t.write name text'.toUTF8).files.Lists name (front ++ rest) →
      (∀ s ∈ front ++ rest, (t.write name text.toUTF8).resolve s.file ≠ .ok (.inside [name])) →
      Extended front rest (t.write name text.toUTF8).files name (t.write name text'.toUTF8).files name

namespace Extended

variable {front rest : List ShelfSource} {files files' : Files} {name name' : String}

theorem lists (h : Extended front rest files name files' name') : files.Lists name front := by
  cases h with
  | beside hlists _ => exact hlists
  | rewritten t filter _ hname hpositive =>
    exact lists_write t hname ⟨filter, front⟩ fun s hs => hpositive s (List.mem_append_left _ hs)
  | replaced t hlists _ _ => exact hlists

theorem lists_extended (h : Extended front rest files name files' name') : files'.Lists name' (front ++ rest) := by
  cases h with
  | beside _ hlists => exact hlists
  | rewritten t _ filter' hname hpositive => exact lists_write t hname ⟨filter', front ++ rest⟩ hpositive
  | replaced t _ hlists _ => exact hlists

/-- **The record files are the same** in both file systems. -/
theorem books_eq (h : Extended front rest files name files' name') :
    ∀ s ∈ front ++ rest, files.books s.file = files'.books s.file := by
  intro s hs
  cases h with
  | beside _ _ => rfl
  | rewritten t filter filter' hname _ => exact t.books_write_toToml hname _ _ s.file
  | @replaced t _ text text' hlists _ helsewhere =>
    have hpath := helsewhere s hs
    rw [FileTree.write_bareName t _ hlists.1] at hpath
    rw [FileTree.write_bareName t _ hlists.1, FileTree.write_bareName t _ hlists.1]
    exact Files.books_congr (FileTree.read_put_of_resolve_ne hpath)

end Extended

/-! ## Result -/

variable {front rest : List ShelfSource} {files files' : Files} {name name' : String}
  {env : Configuration.Environment} {command : Command}

/-- A command on the library loads what the configuration lists and then what the command line gives. -/
theorem run_of_lists (h : files.Lists name front) (hcommand : command.UsesLibrary) :
    run files env ⟨some name, rest, command⟩ =
      (loadLibrary files ⟨none, front⟩ rest).mapError .load >>= command.onLibrary := by
  obtain ⟨filter, hload⟩ := h.load
  have hresolve : resolveConfiguration files env (some name) = .ok ⟨filter, front⟩ := hload
  rw [run_of_usesLibrary hcommand]
  simp only [hresolve]
  rfl

/-- The library is the same, or cannot be loaded for the same reason. -/
theorem loadLibrary_of_extended (h : Extended front rest files name files' name') :
    loadLibrary files ⟨none, front⟩ rest = loadLibrary files' ⟨none, front ++ rest⟩ [] := by
  rw [loadLibrary_eq, loadLibrary_eq, List.append_nil]
  show _ = (Library.empty.loadAll files' (front ++ rest)).2.map _
  rw [Library.loadAll_congr h.books_eq]

variable {line line' : Line}

/-- **A command line goes on where a configuration ends.** A command on the library that is given a configuration and
    then further record files looks the same as one that is given a configuration which lists them all, however the
    two command lines are written. Both report the first record file that fails. -/
theorem outcome_of_extended (env : Configuration.Environment) (h : Extended front rest files name files' name')
    (hcommand : command.UsesLibrary) (hline : line.Writes ⟨some name, rest, command⟩)
    (hline' : line'.Writes ⟨some name', [], command⟩) :
    outcome files env line.arguments = outcome files' env line'.arguments ∧
      ∀ e, files.FirstFails (front ++ rest) e →
        outcome files env line.arguments = ⟨1, "", some e.diagnostic.code⟩ := by
  have hargs := Line.ofArguments_of_writes hline
  have hargs' := Line.ofArguments_of_writes hline'
  constructor
  · refine outcome_congr hargs hargs' (congrArg _ ?_)
    rw [run_of_lists h.lists hcommand, run_of_lists h.lists_extended hcommand, loadLibrary_of_extended h]
  · intro e he
    have hlibrary : loadLibrary files ⟨none, front⟩ rest = .error e := loadLibrary_eq_error_iff.mpr he
    have hrun : run files env ⟨some name, rest, command⟩ = .error (.load e) := by
      rw [run_of_lists h.lists hcommand, hlibrary]
      rfl
    exact outcome_of_run_error hargs hrun

/-- A tree with a record file whose name holds a sign of equality and whose second line has no colon. -/
def sampleTree : FileTree := (FileTree.empty.write "a" "Book\nISBN: 1".toUTF8).write "x=y" "Book\nISBN".toUTF8

/-- The record files that are listed in either configuration, and those that follow. -/
def sampleFront : List ShelfSource := [⟨⟨1, 1, 1⟩, "a"⟩]

/-- The first of them has an offence, and the second is missing. -/
def sampleRest : List ShelfSource := [⟨⟨4294967295, 1, 1⟩, "x=y"⟩, ⟨⟨1, 1, 2⟩, "z"⟩]

theorem sample_extended :
    outcome (sampleTree.write "c" (Configuration.toToml ⟨none, sampleFront⟩).toUTF8).files ⟨none, none⟩
        ["--config", "c", "--load=4294967295/1/1=x=y", "--load", "1/1/2=z", "info"] =
      outcome (sampleTree.write "c" (Configuration.toToml ⟨some "debug", sampleFront ++ sampleRest⟩).toUTF8).files
        ⟨none, none⟩ ["info", "--config=c"] ∧
    outcome (sampleTree.write "c" (Configuration.toToml ⟨none, sampleFront⟩).toUTF8).files ⟨none, none⟩
        ["--config", "c", "--load=4294967295/1/1=x=y", "--load", "1/1/2=z", "info"] =
      ⟨1, "", some "shelfmark::format::missing_delimiter"⟩ := by
  have hname : BareName "c" :=
    ⟨by decide, by decide, by decide, by decide +kernel, by decide +kernel, by decide +kernel⟩
  have hextended : Extended sampleFront sampleRest _ "c" _ "c" :=
    .rewritten sampleTree none (some "debug") hname (by decide)
  have hline : Line.Writes ⟨[.value ⟨"config", "c", false⟩, .value ⟨"load", "4294967295/1/1=x=y", true⟩,
      .value ⟨"load", "1/1/2=z", false⟩], "info", [], none⟩ ⟨some "c", sampleRest, .info⟩ :=
    ⟨rfl, by decide +kernel, nofun, some "c", none, sampleRest, [], by decide +kernel, by decide +kernel, rfl,
      .inl ⟨rfl, rfl⟩⟩
  have hline' : Line.Writes ⟨[], "info", [.value ⟨"config", "c", true⟩], none⟩ ⟨some "c", [], .info⟩ :=
    ⟨rfl, nofun, by decide +kernel, none, some "c", [], [], by decide +kernel, by decide +kernel, rfl,
      .inl ⟨rfl, rfl⟩⟩
  have hcommand : Command.info.UsesLibrary := nofun
  obtain ⟨hsame, hfails⟩ := outcome_of_extended ⟨none, none⟩ hextended hcommand hline hline'
  refine ⟨hsame, hfails (.format ⟨2, .missingDelimiter⟩) ?_⟩
  exact ⟨sampleFront, ⟨⟨4294967295, 1, 1⟩, "x=y"⟩, _, rfl, List.forall_mem_singleton.mpr ⟨_, rfl⟩, rfl⟩

end CommandLine

end LibraryCatalog
