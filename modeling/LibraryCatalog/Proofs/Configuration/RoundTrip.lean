import LibraryCatalog.Configuration.Document
import LibraryCatalog.Proofs.Files.Written
import LibraryCatalog.Proofs.Location.Numbers
import LibraryCatalog.Proofs.Toml.Lines

/-!
# `LibraryCatalog.Proofs.Configuration.RoundTrip` — a configuration that is written is loaded

The document of a configuration is a line for its filter and a table for each of its record files. What the reader
makes of these lines are the assignments and sections that were meant, and the table that they define holds the
record files in their order. Only the locations can stand in the way: those with a zero are written but not read.

## Contents
- **Statements.** `readsAs_toToml`, the document as assignments and sections.
- **Tables.** `ofStatements?_toToml`, the table that they define.
- **Configurations.** `ofToml?_toToml`, and `load_write` for files.
-/

namespace LibraryCatalog

open Toml Toml.Reader

/-! ## Statements -/

theorem isBareKey_logFilter : IsBareKey "log_filter" := ⟨by decide +kernel, by decide +kernel⟩

theorem isBareKey_shelves : IsBareKey "shelves" := ⟨by decide +kernel, by decide +kernel⟩

theorem isBareKey_location : IsBareKey "location" := ⟨by decide +kernel, by decide +kernel⟩

theorem isBareKey_file : IsBareKey "file" := ⟨by decide +kernel, by decide +kernel⟩

variable {cs : List Char} {as : List Assignment} {sections : List Toml.Section}

/-- A line with a key and a string is the assignment of that string. -/
theorem readsAs_tomlLine {key : String} (h : ReadsAs cs as sections) (hkey : IsBareKey key) (text : String) :
    ReadsAs (tomlLine key text ++ cs) (⟨[], key, .string text⟩ :: as) sections := by
  have hends : EndsString ('\n' :: cs) := by
    rintro _ ⟨⟩
    decide
  have hvalue := value_quote (limit - 1) text.toList hends
  rw [String.ofList_toList] at hvalue
  have hfirst : Reader.skipBlanks (quote text.toList ++ '\n' :: cs) = quote text.toList ++ '\n' :: cs := by
    obtain ⟨c, t, hquote, hc⟩ := exists_quote_cons text.toList
    rw [hquote, List.cons_append, Reader.skipBlanks_cons (by rcases hc with rfl | rfl <;> decide)]
  have hline := h.assignment hkey hfirst hvalue
  have hsep : " = ".toList = [' ', '=', ' '] := by decide +kernel
  rw [tomlLine, hsep, List.append_assoc, List.append_assoc, List.append_assoc]
  exact hline

namespace ShelfSource

/-- The table of a record file. -/
def tomlMembers (s : ShelfSource) : Members := [("location", .string s.location.text), ("file", .string s.file)]

/-- The section of a record file. -/
def tomlSection (s : ShelfSource) : Toml.Section :=
  ⟨⟨[], "shelves", true⟩, [⟨[], "location", .string s.location.text⟩, ⟨[], "file", .string s.file⟩]⟩

/-- The block of a record file is its section. -/
theorem readsAs_toToml (s : ShelfSource) (h : ReadsAs cs [] sections) :
    ReadsAs (s.toToml ++ cs) [] (s.tomlSection :: sections) := by
  have hbody := readsAs_tomlLine (readsAs_tomlLine h isBareKey_file s.file) isBareKey_location s.location.text
  have hheader : "[[shelves]]\n".toList = ['[', '['] ++ ("shelves".toList ++ [']', ']', '\n']) := by
    decide +kernel
  unfold toToml
  rw [hheader]
  simp only [List.append_assoc]
  exact hbody.element isBareKey_shelves

/-- Blocks with empty lines before them are their sections. -/
theorem readsAs_blocks (ss : List ShelfSource) :
    ReadsAs (ss.flatMap fun s => '\n' :: s.toToml) [] (ss.map tomlSection) := by
  induction ss with
  | nil => exact readsAs_nil
  | cons s ss ih =>
    rw [List.flatMap_cons, List.cons_append]
    exact (s.readsAs_toToml ih).newline

end ShelfSource

namespace Configuration

/-- The assignments before the first header of a document. -/
def tomlAssignments (c : Configuration) : List Assignment :=
  (c.logFilter.toList.map fun f => ⟨[], "log_filter", .string f⟩) ++
    if c.shelves.isEmpty then [⟨[], "shelves", .array []⟩] else []

theorem readsAs_noShelves : ReadsAs "shelves = []\n".toList [⟨[], "shelves", .array []⟩] [] := by
  have hvalue : value (limit - 1) (['[', ']'] ++ ['\n']) = some (.array [], ['\n']) := rfl
  have hline := readsAs_nil.assignment isBareKey_shelves rfl hvalue
  have hchars : "shelves = []\n".toList = "shelves".toList ++ ([' ', '=', ' '] ++ (['[', ']'] ++ ['\n'])) := by
    decide +kernel
  rw [hchars]
  exact hline

/-- **The document of a configuration** consists of the statements that are meant. -/
theorem readsAs_toToml (c : Configuration) :
    ReadsAs c.toToml.toList c.tomlAssignments (c.shelves.map ShelfSource.tomlSection) := by
  obtain ⟨filter, shelves⟩ := c
  rw [toToml, String.toList_ofList]
  cases shelves with
  | nil =>
    cases filter with
    | none => exact readsAs_noShelves
    | some f => exact readsAs_tomlLine readsAs_noShelves isBareKey_logFilter f
  | cons s ss =>
    have hblocks := s.readsAs_toToml (ShelfSource.readsAs_blocks ss)
    cases filter with
    | none => exact hblocks
    | some f =>
      -- only after a filter does an empty line stand before the first block
      have hline := readsAs_tomlLine hblocks.newline isBareKey_logFilter f
      have hfilter : (tomlLine "log_filter" f).isEmpty = false := by simp [tomlLine]
      simp only [hfilter, if_neg Bool.false_ne_true, List.append_assoc]
      exact hline

/-! ## Tables -/

/-- What a document says before its record files. -/
def filterMembers (filter : Option String) : Members := filter.toList.map fun f => ("log_filter", .string f)

/-- The table of a document. -/
def tomlMembers (c : Configuration) : Members :=
  filterMembers c.logFilter ++
    [("shelves", if c.shelves.isEmpty then .array [] else .tables (c.shelves.map ShelfSource.tomlMembers))]

variable (filter : Option String) (s : ShelfSource)

/-- A key that is not there yet is added at the end. -/
theorem assign_new {ms : Members} {key : String} (hnew : ms.lookup key = none) (v : Value) :
    assign ms ⟨[], key, v⟩ = some (ms ++ [(key, v)]) := by
  simp only [assign, within, hnew]
  rfl

theorem assignAll_tomlSection : assignAll [] s.tomlSection.body = some s.tomlMembers := by
  simp only [assignAll, ShelfSource.tomlSection, List.foldlM_cons, List.foldlM_nil]
  rw [assign_new rfl, Option.bind_eq_bind, Option.bind_some, assign_new rfl]
  rfl

/-- The first section creates the array of tables. -/
theorem addSection_first :
    addSection (filterMembers filter) s.tomlSection =
      some (filterMembers filter ++ [("shelves", .tables [s.tomlMembers])]) := by
  have hnone : (filterMembers filter).lookup "shelves" = none := by cases filter <;> rfl
  have hbody := assignAll_tomlSection s
  simp only [ShelfSource.tomlSection] at hbody ⊢
  simp only [addSection, addElement, within, hnone, hbody, Option.map_some, if_true]

/-- Every other section adds its table at the end. -/
theorem addSection_next (mss : List Members) :
    addSection (filterMembers filter ++ [("shelves", .tables mss)]) s.tomlSection =
      some (filterMembers filter ++ [("shelves", .tables (mss ++ [s.tomlMembers]))]) := by
  have hsome : List.lookup "shelves" (filterMembers filter ++ [("shelves", Value.tables mss)]) = some (.tables mss) := by
    cases filter <;> rfl
  have hreplace (v w : Value) :
      replace (filterMembers filter ++ [("shelves", v)]) "shelves" w = filterMembers filter ++ [("shelves", w)] := by
    cases filter <;> rfl
  have hbody := assignAll_tomlSection s
  simp only [ShelfSource.tomlSection] at hbody ⊢
  simp only [addSection, addElement, within, hsome, hreplace, hbody, Option.map_some, if_true]

theorem foldlM_addSection (mss : List Members) (ss : List ShelfSource) :
    (ss.map ShelfSource.tomlSection).foldlM addSection (filterMembers filter ++ [("shelves", .tables mss)]) =
      some (filterMembers filter ++ [("shelves", .tables (mss ++ ss.map ShelfSource.tomlMembers))]) := by
  induction ss generalizing mss with
  | nil => rw [List.map_nil, List.map_nil, List.append_nil]; rfl
  | cons s ss ih =>
    rw [List.map_cons, List.foldlM_cons, addSection_next, Option.bind_eq_bind, Option.bind_some, ih,
      List.append_assoc]
    rfl

/-- **The statements of a document** define its table. -/
theorem ofStatements?_toToml (c : Configuration) :
    ofStatements? c.tomlAssignments (c.shelves.map ShelfSource.tomlSection) = some c.tomlMembers := by
  obtain ⟨filter, shelves⟩ := c
  cases shelves with
  | nil => cases filter <;> rfl
  | cons s ss =>
    have hfilter : assignAll [] (tomlAssignments ⟨filter, s :: ss⟩) = some (filterMembers filter) := by
      cases filter <;> rfl
    rw [ofStatements?, hfilter, List.map_cons, Option.bind_eq_bind, Option.bind_some, List.foldlM_cons,
      addSection_first, Option.bind_eq_bind, Option.bind_some, foldlM_addSection]
    rfl

/-! ## Configurations -/

/-- A document starts with the key of its filter, the key of its record files, or a bracket. -/
theorem exists_toToml_cons (c : Configuration) :
    ∃ first rest, c.toToml.toList = first :: rest ∧ (first = 'l' ∨ first = 's' ∨ first = '[') := by
  obtain ⟨filter, shelves⟩ := c
  rw [toToml, String.toList_ofList]
  cases filter with
  | none => cases shelves <;> exact ⟨_, _, rfl, by decide⟩
  | some f => exact ⟨_, _, rfl, by decide⟩

theorem read?_toToml (c : Configuration) : Toml.read? c.toToml = some c.tomlMembers := by
  have hmark : c.toToml.toList.head? ≠ some '\uFEFF' := by
    obtain ⟨first, rest, hchars, hfirst⟩ := c.exists_toToml_cons
    rw [hchars]
    rcases hfirst with rfl | rfl | rfl <;> exact fun h => absurd (Option.some.inj h) (by decide)
  have hread := c.readsAs_toToml _ (Nat.lt_succ_self _)
  rw [Toml.read?, Toml.ofChars?, if_neg hmark, hread]
  exact c.ofStatements?_toToml

theorem ofMembers?_tomlMembers (s : ShelfSource) :
    ShelfSource.ofMembers? s.tomlMembers = if s.location.Positive then some s else none := by
  have hlocation : Location.ofChars? s.location.text.toList =
      if s.location.Positive then some s.location else none := by
    rw [Location.text, String.toList_ofList, Location.ofChars?_chars]
  have hlookup : List.lookup "location" s.tomlMembers = some (.string s.location.text) := rfl
  have hfile : List.lookup "file" s.tomlMembers = some (.string s.file) := rfl
  simp only [ShelfSource.ofMembers?, hlookup, hfile, Option.bind_eq_bind, Option.bind_some, ShelfSource.ofTexts?,
    Value.text?, hlocation, Option.pure_def]
  split <;> rfl

theorem lookup_logFilter (c : Configuration) :
    List.lookup "log_filter" c.tomlMembers = c.logFilter.map Value.string := by
  rw [tomlMembers]
  cases c.logFilter <;> rfl

/-- What stands under the key of the record files gives these back. -/
theorem lookup_shelves (c : Configuration) :
    ∃ v, List.lookup "shelves" c.tomlMembers = some v ∧ shelves? v = if c.Positive then some c.shelves else none := by
  obtain ⟨filter, shelves⟩ := c
  rw [tomlMembers]
  refine ⟨_, by cases filter <;> rfl, ?_⟩
  cases shelves with
  | nil => rfl
  | cons s ss => exact mapM_shelves ⟨filter, s :: ss⟩ ofMembers?_tomlMembers

/-- **A written configuration is read back** if its locations are positive, and it is refused if they are not. -/
theorem ofToml?_toToml (c : Configuration) : ofToml? c.toToml = if c.Positive then some c else none := by
  obtain ⟨v, hv, hshelves⟩ := c.lookup_shelves
  have hfilter := c.lookup_logFilter
  obtain ⟨filter, shelves⟩ := c
  rw [ofToml?, read?_toToml, Option.bind_some, ofMembers?, hfilter]
  cases filter with
  | none =>
    simp only [Option.map_none, hv, hshelves, Option.bind_eq_bind, Option.bind_some, Option.pure_def]
    split <;> rfl
  | some f =>
    simp only [Option.map_some, Value.text?, hv, hshelves, Option.bind_eq_bind, Option.bind_some, Option.pure_def]
    split <;> rfl

theorem under_nil (c : Configuration) : c.under [] = c := by
  have hfile (s : ShelfSource) : String.ofList (Path.under [] s.file.toList) = s.file := by
    rw [Path.under_nil, String.ofList_toList]
  rw [under]
  simp only [hfile, List.map_id']

/-- **A configuration survives being written and loaded.** In whatever tree its document is written under a bare name,
    loading it from there gives the configuration, files and all, if every location is positive, and a report that
    the document is malformed if some location has a zero. -/
theorem load_write (t : FileTree) {name : String} (hname : BareName name) (c : Configuration) :
    load (t.write name c.toToml.toUTF8).files name =
      if c.Positive then .ok c else .error (.malformed name) := by
  have hread : (t.write name c.toToml.toUTF8).files.read name = .ok c.toToml := t.read_write hname c.toToml
  rw [load, hread]
  simp only [ofToml?_toToml]
  by_cases hpositive : c.Positive
  · rw [if_pos hpositive, if_pos hpositive]
    simp only [hname.parent?, under_nil]
  · rw [if_neg hpositive, if_neg hpositive]

/-- A configuration whose texts need three double quotes with an escape, three single quotes, and one single quote. -/
def sampleConfiguration : Configuration :=
  ⟨some "\n\"\"\"'''", [⟨⟨1, 2, 3⟩, "/\"\"\"\n''"⟩, ⟨⟨1, 2, 3⟩, "\\"⟩]⟩

/-- A configuration that can be written but not read. -/
def sampleZero : Configuration := ⟨none, [⟨⟨1, 2, 3⟩, "a"⟩, ⟨⟨4, 0, 4294967295⟩, ""⟩]⟩

theorem sample_load_write :
    load ((FileTree.empty.write "c" "".toUTF8).write "c" sampleConfiguration.toToml.toUTF8).files "c" =
        .ok sampleConfiguration ∧
      load (FileTree.empty.write "c" sampleZero.toToml.toUTF8).files "c" = .error (.malformed "c") := by
  have hname : BareName "c" :=
    ⟨by decide, by decide, by decide, by decide +kernel, by decide +kernel, by decide +kernel⟩
  have hpositive : sampleConfiguration.Positive := by decide
  have hzero : ¬sampleZero.Positive := by decide
  exact ⟨(load_write _ hname sampleConfiguration).trans (if_pos hpositive),
    (load_write _ hname sampleZero).trans (if_neg hzero)⟩

end Configuration

end LibraryCatalog
